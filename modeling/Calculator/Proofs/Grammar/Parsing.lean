import Mathlib
import Calculator.Proofs.Grammar.Completeness
import Calculator.Proofs.Grammar.Soundness
/-!
# The parser accepts its grammar

A source parses as the tree that its tokens derive, and as nothing if they
derive none (`parse_eq_ok_iff_derives`). Since a machine goes one way only,
tokens derive at most one tree (`Derives.unique`), so the grammar is
unambiguous once a context is fixed.
-/

namespace Calculator

variable {context : Context} {tokens : List Token} {source : String} {tree : Expr}

/-- Where arguments are counted, a good outcome is the only one allowed. -/
theorem Grammar.Allows.eq_ok {α : Type} {a : α} {outcome : Except (Located SyntaxError) α}
    (h : context.grammar.Allows (· = a) outcome) : outcome = .ok a := by
  cases h with
  | ok hgood => rw [hgood]
  | miscounted hcounted => cases hcounted

/-- The machine has spelled what it read from the start. -/
theorem Machine.spells_of_read {grammar : Grammar} {machine : Machine}
    (h : Machine.start.read grammar.context tokens = .ok machine) :
    machine.Spells grammar tokens := by
  have hstart : Machine.start.Spells grammar [] := Machine.spells_start .nil
  exact hstart.read h

/-- **The tokens of a source that parses derive its tree**, counted or not. -/
theorem exists_derives_of_parse (h : parse context source = .ok tree) :
    ∃ tokens last, tokenize source = .ok (tokens ++ [last]) ∧
      Derives context.grammar tokens (.expression tree) ∧
      Derives context.laxGrammar tokens (.expression tree) := by
  obtain ⟨tokens, last, machine, htokens, hread, hfinish⟩ := exists_read_of_parse h
  have hcounted : machine.Spells context.grammar tokens := Machine.spells_of_read hread
  have hlax : machine.Spells context.laxGrammar tokens := Machine.spells_of_read hread
  exact ⟨tokens, last, htokens, hcounted.finish hfinish, hlax.finish hfinish⟩

/-- **A source whose tokens derive a tree parses as that tree**, or fails at
a miscounted call if nobody counts. -/
theorem parse_allows {grammar : Grammar} {last : Token}
    (htokens : tokenize source = .ok (tokens ++ [last]))
    (h : Derives grammar tokens (.expression tree)) :
    grammar.Allows (· = tree) (parse grammar.context source) := by
  obtain ⟨tokens', last', heq, -, -, hparse⟩ := parse_eq_of_tokenize htokens
  obtain ⟨rfl, hlast⟩ := List.append_inj' heq rfl
  rw [hparse]
  exact h.finish last'

/-- **No tokens derive two trees.** -/
theorem Derives.unique {tree' : Expr} (h : Derives context.grammar tokens (.expression tree))
    (h' : Derives context.grammar tokens (.expression tree')) : tree = tree' := by
  have hok := (h.finish ⟨.endOfInput, 0, ""⟩).eq_ok
  rw [(h'.finish ⟨.endOfInput, 0, ""⟩).eq_ok] at hok
  cases hok
  rfl

/-- **The parser accepts exactly its grammar** and gives exactly the tree
that the grammar does, which is the only one the tokens derive. -/
theorem parse_eq_ok_iff_derives (context : Context) :
    (∀ source all, tokenize source = .ok all →
      ∃ tokens last, all = tokens ++ [last] ∧ last.kind = .endOfInput ∧
        ∀ tree, parse context source = .ok tree ↔
          Derives context.grammar tokens (.expression tree)) ∧
    ∀ tokens left right, Derives context.grammar tokens (.expression left) →
      Derives context.grammar tokens (.expression right) → left = right := by
  refine ⟨fun source all h => ?_, fun tokens left right hleft hright => hleft.unique hright⟩
  obtain ⟨tokens, last, rfl, hkind, -, -⟩ := parse_eq_of_tokenize h
  refine ⟨tokens, last, rfl, hkind, fun tree =>
    ⟨fun hparse => ?_, fun hderives => (parse_allows h hderives).eq_ok⟩⟩
  obtain ⟨tokens', last', h', hderives, -⟩ := exists_derives_of_parse hparse
  rw [h] at h'
  obtain ⟨rfl, -⟩ := List.append_inj' (Except.ok.inj h') rfl
  exact hderives

/-- Two names: a variable `x` of this value, and a function `f` of one argument. -/
def Context.sample (value : Float) : Context where
  lookup name :=
    if name = "x" then some (.var value)
    else if name = "f" then some (.fn (.ofCurried 1 fun x : Float => x))
    else none

/-- Parentheses after a name are a call if it is a function, and an operand
juxtaposed if it is a variable; a sign negates all that is juxtaposed. -/
theorem parse_sign_call_product : ∃ tokens last tree,
    tokenize "-f(x)x(x)!" = .ok (tokens ++ [last]) ∧
      tree = .neg (.binary .mul (.call "f" [.var "x"])
        (.binary .mul (.var "x") (.fact (.var "x")))) ∧
      parse (.sample 2.0) "-f(x)x(x)!" = .ok tree ∧
      Derives (Context.sample 2.0).grammar tokens (.expression tree) ∧
      ∀ other, Derives (Context.sample 2.0).grammar tokens (.expression other) → other = tree := by
  have htokens : tokenize "-f(x)x(x)!" = .ok
      [⟨.minus, 0, "-"⟩, ⟨.identifier, 1, "f"⟩, ⟨.openParen, 2, "("⟩, ⟨.identifier, 3, "x"⟩,
        ⟨.closeParen, 4, ")"⟩, ⟨.identifier, 5, "x"⟩, ⟨.openParen, 6, "("⟩,
        ⟨.identifier, 7, "x"⟩, ⟨.closeParen, 8, ")"⟩, ⟨.bang, 9, "!"⟩, ⟨.endOfInput, 10, ""⟩] := by
    cbv
  have hparse (value : Float) : parse (.sample value) "-f(x)x(x)!" =
      .ok (.neg (.binary .mul (.call "f" [.var "x"])
        (.binary .mul (.var "x") (.fact (.var "x"))))) := by
    cbv
  obtain ⟨hparses, hunique⟩ := parse_eq_ok_iff_derives (.sample 2.0)
  obtain ⟨tokens, last, heq, -, hiff⟩ := hparses _ _ htokens
  have hderives := (hiff _).1 (hparse 2.0)
  refine ⟨tokens, last, _, ?_, rfl, hparse 2.0, hderives, ?_⟩
  · rw [htokens, heq]
  · exact fun other hother => hunique tokens _ _ hother hderives

end Calculator
