import Calculator.Token.Stream
/-!
# Sources of tokens

Tokens can be read off a text as they are asked for, or be there already, and
whoever asks for them need not know which. A `TokenSource` gives the next token
or what stands in its place, and shows it without giving it. A `Tape` is a
source whose tokens are there from the start.
-/

namespace Calculator

/-- **States that tokens are read from.** A look leaves the state as it was.
Every token but the end of the input leaves less to read, and a token that is
called a number is one. -/
class TokenSource (σ : Type) where
  /-- Reads the next token, or what stands in its place. -/
  next : σ → Except (Located LexError) Token × σ
  /-- Shows what `next` would read. -/
  peek : σ → Except (Located LexError) Token × σ
  /-- Bounds how much is left to read. -/
  left : σ → Nat
  peek_eq (s : σ) : peek s = ((next s).1, s)
  left_le {s after : σ} {token : Token} : next s = (.ok token, after) → left after ≤ left s
  left_lt {s after : σ} {token : Token} :
    next s = (.ok token, after) → token.kind ≠ .endOfInput → left after < left s
  isNumber {s after : σ} {token : Token} :
    next s = (.ok token, after) → token.kind = .number → Literal.isNumber token.text.toList

/-- **A stream as a source has it**: the end of the input is its ending or
nowhere, and the numbers are numbers. -/
structure Tape extends TokenStream where
  kind_ne : ∀ token ∈ tokens, token.kind ≠ .endOfInput
  kind_ending : ∀ last, ending = .ok last → last.kind = .endOfInput
  isNumber : ∀ token ∈ tokens, token.kind = .number → Literal.isNumber token.text.toList

namespace Tape

/-- The first token, and the tape behind it. A tape stays at its ending. -/
def next (tape : Tape) : Except (Located LexError) Token × Tape :=
  match tape with
  | ⟨⟨[], ending⟩, _, _, _⟩ => (ending, tape)
  | ⟨⟨token :: tokens, ending⟩, hkinds, hending, hnumbers⟩ =>
    (.ok token, ⟨⟨tokens, ending⟩, fun other hother => hkinds other (.tail _ hother), hending,
      fun other hother => hnumbers other (.tail _ hother)⟩)

/-- The end of the input is read off a tape that is left, and nothing else. -/
theorem next_eq_ok {tape after : Tape} {token : Token} (h : tape.next = (.ok token, after)) :
    (tape.tokens = [] ∧ tape.ending = .ok token ∧ after = tape) ∨
      tape.tokens = token :: after.tokens ∧ tape.ending = after.ending := by
  obtain ⟨⟨_ | ⟨first, tokens⟩, ending⟩, hkinds, hending, hnumbers⟩ := tape
  · simp only [next, Prod.mk.injEq] at h
    exact .inl ⟨rfl, h.1, h.2.symm⟩
  · simp only [next, Prod.mk.injEq, Except.ok.injEq] at h
    obtain ⟨rfl, rfl⟩ := h
    exact .inr ⟨rfl, rfl⟩

/-- Tokens come off a tape one by one. -/
instance : TokenSource Tape where
  next := next
  peek tape := (tape.next.1, tape)
  left tape := tape.tokens.length
  peek_eq _ := rfl
  left_le h := by
    rcases next_eq_ok h with ⟨-, -, rfl⟩ | ⟨htokens, -⟩
    · exact Nat.le_refl _
    · simp [htokens]
  left_lt {tape after token} h hkind := by
    rcases next_eq_ok h with ⟨-, hending, -⟩ | ⟨htokens, -⟩
    · exact absurd (tape.kind_ending token hending) hkind
    · simp [htokens]
  isNumber {tape after token} h hkind := by
    rcases next_eq_ok h with ⟨-, hending, -⟩ | ⟨htokens, -⟩
    · cases (tape.kind_ending token hending).symm.trans hkind
    · exact tape.isNumber token (by simp [htokens]) hkind

end Tape

end Calculator
