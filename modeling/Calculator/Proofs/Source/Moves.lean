import Calculator.Proofs.Source.Place
import Calculator.Proofs.Source.Steps
/-!
# Runs of moves

A cursor can be asked for any moves in turn, saves and restores among them
(`Cursor.afterMoves`). What each move answers and where it leads is told by positions in the
source (`Cursor.Does`), which leaves it no choice (`Cursor.move_eq_iff`).

Moves are nested if they restore all that they save and nothing else (`Move.Nested`). A save,
nested moves and a restore leave no trace (`Cursor.afterMoves_bracket`), and a restore that
has a place to return to always ends such a bracket (`Cursor.exists_save_of_saved`). Looks,
and moves over characters that pass a test, are made of reads, saves and restores
(`Cursor.steps`), so all of this holds in their midst as well (`Cursor.Backed.makes`).
-/

namespace Calculator

namespace Cursor

/-- What can be asked of a cursor. -/
inductive Move where
  | read
  | look
  | save
  | restore
  | takeIf (test : Char → Bool)
  | takeWhile (test : Char → Bool)

/-- What a move answers: a character if there is one, a run of them, or nothing. -/
inductive Answer where
  | character (c : Option Char)
  | run (taken : List Char)
  | done
deriving DecidableEq, Repr

/-- **What a move answers**, made step by step, and the cursor behind it. -/
def move (cursor : Cursor) : Move → Answer × Cursor
  | .read => cursor.read.map .character id
  | .look => cursor.look.map .character id
  | .save => (.done, cursor.save)
  | .restore => (.done, cursor.restore)
  | .takeIf test => (cursor.stepIf test).map .character id
  | .takeWhile test => (cursor.stepWhile test).map .run id

/-- The cursor behind moves in turn. -/
def afterMoves (cursor : Cursor) (moves : List Move) : Cursor :=
  moves.foldl (fun cursor asked => (cursor.move asked).2) cursor

/-- **Each restore has a place to return to** when its turn comes. -/
def Backed (cursor : Cursor) : List Move → Prop
  | [] => True
  | asked :: moves => (asked = .restore → cursor.saved ≠ []) ∧ (cursor.move asked).2.Backed moves

variable {source : List Char} {cursor after : Cursor} {asked : Move} {answer : Answer}
variable {before moves inner : List Move}

@[simp] theorem afterMoves_nil (cursor : Cursor) : cursor.afterMoves [] = cursor := rfl

@[simp] theorem afterMoves_cons (cursor : Cursor) (asked : Move) (moves : List Move) :
    cursor.afterMoves (asked :: moves) = (cursor.move asked).2.afterMoves moves := rfl

/-- Moves are made from where those before them lead. -/
@[simp] theorem afterMoves_append (cursor : Cursor) (before moves : List Move) :
    cursor.afterMoves (before ++ moves) = (cursor.afterMoves before).afterMoves moves :=
  List.foldl_append

/-- Moves in turn are backed if each part is, where it begins. -/
theorem backed_append : cursor.Backed (before ++ moves) ↔
    cursor.Backed before ∧ (cursor.afterMoves before).Backed moves := by
  induction before generalizing cursor with
  | nil => exact (and_iff_right trivial).symm
  | cons asked before ih =>
    rw [List.cons_append, Backed, Backed, ih, afterMoves_cons, and_assoc]

/-- So the restores among them have places to return to wherever they stand. -/
theorem Backed.saved_ne_nil (h : cursor.Backed moves) (hmoves : before ++ [asked] <+: moves)
    (hasked : asked = .restore) : (cursor.afterMoves before).saved ≠ [] := by
  obtain ⟨later, rfl⟩ := hmoves
  obtain ⟨hfront, -⟩ := backed_append.1 h
  obtain ⟨-, hlast⟩ := backed_append.1 hfront
  exact hlast.1 hasked

/-! ## Where moves lead -/

/-- Moves other than saves and restores go over some characters, or over none. -/
theorem exists_advance (cursor : Cursor) (hsave : asked ≠ .save) (hrestore : asked ≠ .restore) :
    ∃ n, (cursor.move asked).2 = cursor.advance n := by
  cases asked with
  | read => exact ⟨1, rfl⟩
  | look => exact ⟨0, by simp [move, advance]⟩
  | save => exact absurd rfl hsave
  | restore => exact absurd rfl hrestore
  | takeIf test =>
    obtain ⟨c, rest, -, -, htake⟩ | ⟨-, htake⟩ := cursor.takeIf_cases test
    · exact ⟨1, by simp [move, htake]⟩
    · exact ⟨0, by simp [move, htake, advance]⟩
  | takeWhile test => exact ⟨_, congrArg Prod.snd (cursor.stepWhile_eq test)⟩

/-- **No move leaves the source.** -/
theorem Within.move (h : cursor.Within source) (asked : Move) :
    (cursor.move asked).2.Within source := by
  by_cases hsave : asked = .save
  · subst hsave
    exact h.save
  by_cases hrestore : asked = .restore
  · subst hrestore
    exact h.restore
  obtain ⟨n, hn⟩ := cursor.exists_advance hsave hrestore
  rw [hn]
  exact h.advance n

/-- And so no run of moves does. -/
theorem Within.afterMoves (h : cursor.Within source) (moves : List Move) :
    (cursor.afterMoves moves).Within source := by
  induction moves generalizing cursor with
  | nil => exact h
  | cons asked moves ih => exact ih (h.move asked)

/-! ## What a move does -/

/-- **What a move does in a source**, told by positions. -/
inductive Does (source : List Char) (cursor : Cursor) : Move → Answer → Cursor → Prop
  /-- A read takes the next character. At the end there is none, and none is taken. -/
  | read {after : Cursor} : Takes source cursor after source[cursor.pos]?.toList →
      Does source cursor .read (.character source[cursor.pos]?) after
  /-- A look shows it, and the cursor stays as it is. -/
  | look : Does source cursor .look (.character source[cursor.pos]?) cursor
  /-- The place is saved before all others. -/
  | save : Does source cursor .save .done ⟨cursor.place, cursor.place :: cursor.saved⟩
  /-- The place saved last is the cursor's again. -/
  | restore {place : Place} {saved : List Place} : cursor.saved = place :: saved →
      Does source cursor .restore .done ⟨place, saved⟩
  /-- A character that passes is taken. -/
  | pass {test : Char → Bool} {c : Char} {after : Cursor} : source[cursor.pos]? = some c →
      test c → Takes source cursor after [c] →
      Does source cursor (.takeIf test) (.character (some c)) after
  /-- Where none passes, the cursor stays as it is. -/
  | refuse {test : Char → Bool} : (∀ c ∈ source[cursor.pos]?, test c = false) →
      Does source cursor (.takeIf test) (.character none) cursor
  /-- A run that passes is taken, and none goes further. -/
  | run {test : Char → Bool} {taken : List Char} {after : Cursor} :
      Takes source cursor after taken → (∀ c ∈ taken, test c) →
      (∀ stop ≤ source.length, (∀ c ∈ (Span.mk cursor.pos stop).slice source, test c) →
        stop ≤ after.pos) →
      Does source cursor (.takeWhile test) (.run taken) after

/-- **No run that passes goes further** than the one that is gone over. -/
theorem le_pos_takeWhile {test : Char → Bool} {stop : Nat} (h : cursor.place.In source)
    (hstop : stop ≤ source.length)
    (hpass : ∀ c ∈ (Span.mk cursor.pos stop).slice source, test c) :
    stop ≤ (cursor.takeWhile test).2.pos := by
  rcases Nat.lt_or_ge cursor.pos stop with hlt | hle
  · have hahead : (Span.mk cursor.pos stop).slice source ++ source.drop stop = cursor.ahead :=
      (Span.slice_append_drop (Nat.le_of_lt hlt)).trans h.2.symm
    have hlength : ((Span.mk cursor.pos stop).slice source).length = stop - cursor.pos :=
      Span.length_slice hstop
    have hbegins : cursor.ahead.takeWhile test <+: cursor.ahead := List.takeWhile_prefix _
    have hpos : (cursor.takeWhile test).2.pos =
        cursor.pos + (cursor.ahead.takeWhile test).length :=
      Place.pos_advance hbegins.length_le
    rw [hpos, ← hahead, List.takeWhile_append_of_pos hpass, List.length_append, hlength]
    omega
  · exact Nat.le_trans hle (Nat.le_add_right _ _)

/-- **A move does what is told of it**, if it is backed. -/
theorem does_move (h : cursor.Within source) (hbacked : asked = .restore → cursor.saved ≠ []) :
    Does source cursor asked (cursor.move asked).1 (cursor.move asked).2 := by
  have hpeek := peek_eq_getElem? h.place_in
  have hread := takes_read h.place_in
  cases asked with
  | read =>
    have hmove : cursor.move .read = (.character source[cursor.pos]?, cursor.read.2) := by
      rw [← hpeek]
      rfl
    rw [hmove]
    exact .read hread
  | look =>
    have hmove : cursor.move .look = (.character source[cursor.pos]?, cursor) := by
      simp [move, hpeek]
    rw [hmove]
    exact .look
  | save => exact .save
  | restore =>
    obtain ⟨place, _ | ⟨earlier, saved⟩⟩ := cursor
    · exact absurd rfl (hbacked rfl)
    · exact .restore rfl
  | takeIf test =>
    obtain ⟨c, rest, hahead, htest, htake⟩ | ⟨hnone, htake⟩ := cursor.takeIf_cases test
    · have hmove : cursor.move (.takeIf test) = (.character (some c), cursor.read.2) := by
        simp [move, htake, Cursor.read]
      have hc : source[cursor.pos]? = some c := by rw [← hpeek, peek, hahead, List.head?_cons]
      rw [hc] at hread
      rw [hmove]
      exact .pass hc htest hread
    · have hmove : cursor.move (.takeIf test) = (.character none, cursor) := by
        simp [move, htake]
      rw [hmove]
      exact .refuse (hpeek ▸ hnone)
  | takeWhile test =>
    have hmove : cursor.move (.takeWhile test) =
        (.run (cursor.takeWhile test).1, (cursor.takeWhile test).2) := by
      rw [move, stepWhile_eq]
      rfl
    rw [hmove]
    exact .run (takes_takeWhile h.place_in test) (List.all_eq_true.1 List.all_takeWhile)
      fun stop hstop hpass => le_pos_takeWhile h.place_in hstop hpass

/-- **What is told of a move settles it.** -/
theorem Does.unique {answer' : Answer} {after' : Cursor}
    (h : Does source cursor asked answer after) (h' : Does source cursor asked answer' after') :
    answer = answer' ∧ after = after' := by
  cases h with
  | read htakes =>
    obtain ⟨htakes'⟩ := h'
    exact ⟨rfl, htakes.unique htakes'⟩
  | look =>
    cases h'
    exact ⟨rfl, rfl⟩
  | save =>
    cases h'
    exact ⟨rfl, rfl⟩
  | restore hsaved =>
    cases h' with
    | restore hsaved' =>
      obtain ⟨rfl, rfl⟩ := List.cons.inj (hsaved.symm.trans hsaved')
      exact ⟨rfl, rfl⟩
  | pass hc htest htakes =>
    cases h' with
    | pass hc' _ htakes' =>
      obtain rfl := Option.some.inj (hc.symm.trans hc')
      exact ⟨rfl, htakes.unique htakes'⟩
    | refuse hnone => exact absurd htest (Bool.eq_false_iff.1 (hnone _ hc))
  | refuse hnone =>
    cases h' with
    | pass hc htest _ => exact absurd htest (Bool.eq_false_iff.1 (hnone _ hc))
    | refuse _ => exact ⟨rfl, rfl⟩
  | run htakes hpass hlongest =>
    cases h' with
    | run htakes' hpass' hlongest' =>
      -- each of the two runs is as long as the other, being the longest
      have hle := hlongest' _ htakes.place_in.1 (htakes.taken_eq ▸ hpass)
      have hge := hlongest _ htakes'.place_in.1 (htakes'.taken_eq ▸ hpass')
      obtain ⟨rfl, rfl⟩ := htakes.eq_of_pos_eq htakes' (Nat.le_antisymm hle hge)
      exact ⟨rfl, rfl⟩

/-- So a backed move is all that is told of it, and nothing else. -/
theorem move_eq_iff (h : cursor.Within source) (hbacked : asked = .restore → cursor.saved ≠ []) :
    cursor.move asked = (answer, after) ↔ Does source cursor asked answer after := by
  have hdoes := does_move h hbacked
  constructor
  · intro hmove
    rwa [hmove] at hdoes
  · intro hdoes'
    obtain ⟨hanswer, hafter⟩ := hdoes.unique hdoes'
    exact Prod.ext hanswer hafter

/-! ## Nested moves -/

/-- **Moves that restore all that they save**, and nothing that was saved before. -/
inductive Move.Nested : List Move → Prop
  | nil : Nested []
  | cons {asked : Move} {moves : List Move} : asked ≠ .save → asked ≠ .restore → Nested moves →
      Nested (asked :: moves)
  | bracket {inner moves : List Move} : Nested inner → Nested moves →
      Nested (.save :: (inner ++ .restore :: moves))

/-- Nested moves in turn are nested. -/
theorem Move.Nested.append {later : List Move} (h : Nested moves) (hlater : Nested later) :
    Nested (moves ++ later) := by
  induction h with
  | nil => exact hlater
  | cons hsave hrestore _ ih => exact .cons hsave hrestore ih
  | bracket hinner _ _ ih =>
    rw [List.cons_append, List.append_assoc, List.cons_append]
    exact .bracket hinner ih

/-- Where a cursor returns to is where it saved its place, if the rest is still saved. -/
theorem restore_of_saved (h : after.saved = cursor.save.saved) : after.restore = cursor := by
  rw [restore, h]
  rfl

/-- **Nested moves leave alone what is saved.** -/
theorem saved_afterMoves (h : Move.Nested moves) (cursor : Cursor) :
    (cursor.afterMoves moves).saved = cursor.saved := by
  induction h generalizing cursor with
  | nil => rfl
  | cons hsave hrestore _ ih =>
    obtain ⟨n, hn⟩ := cursor.exists_advance hsave hrestore
    rw [afterMoves_cons, ih, hn]
    rfl
  | @bracket inner moves _ _ ihinner ih =>
    have hback : (cursor.save.afterMoves inner).restore = cursor :=
      restore_of_saved (ihinner cursor.save)
    calc (cursor.afterMoves (.save :: (inner ++ .restore :: moves))).saved
      _ = ((cursor.save.afterMoves inner).restore.afterMoves moves).saved := by simp [move]
      _ = cursor.saved := by rw [hback, ih]

/-- So they are backed, wherever they begin. -/
theorem Move.Nested.backed (h : Nested moves) (cursor : Cursor) : cursor.Backed moves := by
  induction h generalizing cursor with
  | nil => trivial
  | cons _ hrestore _ ih => exact ⟨fun hasked => absurd hasked hrestore, ih _⟩
  | bracket hinner _ ihinner ih =>
    refine ⟨nofun, backed_append.2 ⟨ihinner _, fun _ => ?_, ih _⟩⟩
    rw [saved_afterMoves hinner]
    exact List.cons_ne_nil _ _

/-- **A save and a restore with nested moves between them leave no trace.** -/
theorem afterMoves_bracket (h : Move.Nested inner) (cursor : Cursor) :
    cursor.afterMoves (.save :: (inner ++ [.restore])) = cursor :=
  calc cursor.afterMoves (.save :: (inner ++ [.restore]))
    _ = (cursor.save.afterMoves inner).restore := by simp [move]
    _ = cursor := restore_of_saved (saved_afterMoves h cursor.save)

/-- What is saved behind a restore was saved before it, below one place. -/
theorem exists_saved_of_restore {place : Place} {saved : List Place}
    (h : cursor.restore.saved = place :: saved) :
    ∃ later, cursor.saved = later :: place :: saved := by
  obtain ⟨_, _ | ⟨later, saved'⟩⟩ := cursor
  · cases h
  · exact ⟨later, congrArg (later :: ·) h⟩

/-- **Whatever is saved was saved by one of the moves**, if nothing was at first. The moves
behind that save are nested, and the cursor stood at its place with the rest saved. -/
theorem exists_save_of_saved {place : Place} {saved : List Place} (hnone : cursor.saved = [])
    (h : (cursor.afterMoves moves).saved = place :: saved) :
    ∃ outer inner, moves = outer ++ .save :: inner ∧ Move.Nested inner ∧
      cursor.afterMoves outer = ⟨place, saved⟩ := by
  -- What a last restore returns to was saved before a whole bracket, which the induction
  -- goes over at once: it is on the length of the moves, and cuts them from the right.
  induction hlength : moves.length using Nat.strongRecOn generalizing moves place saved with
  | _ length ih =>
    subst hlength
    rcases List.eq_nil_or_concat moves with rfl | ⟨front, last, hmoves⟩
    · cases hnone.symm.trans h
    rw [List.concat_eq_append] at hmoves
    subst hmoves
    have hshort : front.length < (front ++ [last]).length := by simp
    rw [afterMoves_append, afterMoves_cons, afterMoves_nil] at h
    by_cases hsave : last = .save
    · subst hsave
      obtain ⟨rfl, rfl⟩ := List.cons.inj h
      exact ⟨front, [], rfl, .nil, rfl⟩
    by_cases hrestore : last = .restore
    · subst hrestore
      obtain ⟨later, hlater⟩ := exists_saved_of_restore h
      obtain ⟨outer', inner', rfl, hinner', houter'⟩ := ih _ hshort hlater rfl
      have hshorter : outer'.length <
          (outer' ++ Move.save :: inner' ++ [Move.restore]).length := by
        simp only [List.length_append, List.length_cons]
        omega
      obtain ⟨outer, inner, rfl, hinner, houter⟩ :=
        ih _ hshorter (congrArg Cursor.saved houter') rfl
      refine ⟨outer, inner ++ .save :: (inner' ++ [.restore]), by simp, ?_, houter⟩
      exact hinner.append (.bracket hinner' .nil)
    · obtain ⟨n, hn⟩ := (cursor.afterMoves front).exists_advance hsave hrestore
      rw [hn] at h
      obtain ⟨outer, inner, rfl, hinner, houter⟩ := ih _ hshort h rfl
      refine ⟨outer, inner ++ [last], by simp, ?_, houter⟩
      exact hinner.append (.cons hsave hrestore .nil)

/-! ## Moves made of reads, saves and restores -/

/-- A look saves the place, reads and returns. -/
def lookSteps : List Move := [.save, .read, .restore]

/-- A look, and a read if it shows a character that passes. -/
def ifSteps (cursor : Cursor) (test : Char → Bool) : List Move :=
  lookSteps ++ if cursor.look.1.any test then [.read] else []

/-- The same again and again, as long as a character passes. -/
def whileSteps (cursor : Cursor) (test : Char → Bool) : List Move :=
  match h : cursor.stepIf test with
  | (some _, after) =>
    have := length_ahead_takeIf (cursor.stepIf_eq test ▸ h)
    cursor.ifSteps test ++ after.whileSteps test
  | (none, _) => cursor.ifSteps test
termination_by cursor.ahead.length

/-- **The reads, saves and restores that a move is made of.** -/
def steps (cursor : Cursor) : Move → List Move
  | .look => lookSteps
  | .takeIf test => cursor.ifSteps test
  | .takeWhile test => cursor.whileSteps test
  | asked => [asked]

/-- And those that moves in turn are made of. -/
def allSteps (cursor : Cursor) : List Move → List Move
  | [] => []
  | asked :: moves => cursor.steps asked ++ (cursor.move asked).2.allSteps moves

/-- **Reads, saves and restores lead from a cursor to another**, and all of them are backed. -/
structure Makes (cursor : Cursor) (steps : List Move) (after : Cursor) : Prop where
  subset : steps ⊆ [.read, .save, .restore]
  backed : cursor.Backed steps
  after_eq : cursor.afterMoves steps = after

/-- Steps lead on from where steps lead. -/
theorem Makes.append {first later : List Move} {last : Cursor} (h : cursor.Makes first after)
    (hlater : after.Makes later last) : cursor.Makes (first ++ later) last := by
  obtain ⟨hsubset, hbacked, rfl⟩ := h
  refine ⟨List.append_subset.2 ⟨hsubset, hlater.subset⟩,
    backed_append.2 ⟨hbacked, hlater.backed⟩, ?_⟩
  rw [afterMoves_append, hlater.after_eq]

theorem makes_nil (cursor : Cursor) : cursor.Makes [] cursor :=
  ⟨List.nil_subset _, trivial, rfl⟩

theorem makes_read (cursor : Cursor) : cursor.Makes [.read] cursor.read.2 :=
  ⟨by simp, ⟨nofun, trivial⟩, rfl⟩

/-- What a look restores, it saved. -/
theorem makes_look (cursor : Cursor) : cursor.Makes lookSteps cursor :=
  ⟨by simp [lookSteps], ⟨nofun, nofun, fun _ => List.cons_ne_nil _ _, trivial⟩, rfl⟩

theorem makes_stepIf (cursor : Cursor) (test : Char → Bool) :
    cursor.Makes (cursor.ifSteps test) (cursor.stepIf test).2 := by
  refine cursor.makes_look.append ?_
  rw [look_eq, stepIf_eq, takeIf]
  cases cursor.peek with
  | none => exact cursor.makes_nil
  | some c =>
    rw [Option.any_some]
    cases htest : test c with
    | true => simpa [htest] using cursor.makes_read
    | false => simpa [htest] using cursor.makes_nil

theorem makes_stepWhile (cursor : Cursor) (test : Char → Bool) :
    cursor.Makes (cursor.whileSteps test) (cursor.stepWhile test).2 := by
  have hround := cursor.makes_stepIf test
  fun_induction whileSteps cursor test with
  | case1 cursor c after h hlt ih =>
    rw [h] at hround
    rw [stepWhile_of_pass h]
    exact hround.append (ih (after.makes_stepIf test))
  | case2 cursor after h =>
    rw [h] at hround
    rwa [stepWhile_of_refuse h]

/-- **Each move leads where its steps lead**, and they are backed if it is. -/
theorem makes_move (hbacked : asked = .restore → cursor.saved ≠ []) :
    cursor.Makes (cursor.steps asked) (cursor.move asked).2 := by
  cases asked with
  | look => exact cursor.makes_look
  | takeIf test => exact cursor.makes_stepIf test
  | takeWhile test => exact cursor.makes_stepWhile test
  | read | save | restore => exact ⟨by simp [steps], ⟨hbacked, trivial⟩, rfl⟩

/-- And so do moves in turn. -/
theorem Backed.makes (h : cursor.Backed moves) :
    cursor.Makes (cursor.allSteps moves) (cursor.afterMoves moves) := by
  induction moves generalizing cursor with
  | nil => exact cursor.makes_nil
  | cons asked moves ih => exact (makes_move h.1).append (ih h.2)

/-! ## What runs of moves keep to -/

/-- **What moves keep to** in a source, from where they begin. -/
structure Disciplined (source : List Char) (start : Cursor) (moves : List Move) : Prop where
  /-- The cursor and all that it has saved stay in the source. -/
  within : ∀ before, before <+: moves → (start.afterMoves before).Within source
  /-- Each move does what is told of it, and nothing else. -/
  does : ∀ before asked, before ++ [asked] <+: moves → ∀ answer after,
    (start.afterMoves before).move asked = (answer, after) ↔
      Does source (start.afterMoves before) asked answer after
  /-- A save, nested moves and a restore leave no trace. -/
  returns : ∀ outer inner, Move.Nested inner →
    outer ++ .save :: (inner ++ [.restore]) <+: moves →
      start.afterMoves (outer ++ .save :: (inner ++ [.restore])) = start.afterMoves outer
  /-- Every restore has its save, and the moves between them are nested. -/
  paired : ∀ before, before ++ [.restore] <+: moves →
    ∃ outer inner, before = outer ++ .save :: inner ∧ Move.Nested inner

/-- **Backed moves keep to it**, where nothing was saved before them. -/
theorem Backed.disciplined (h : cursor.Backed moves) (hwithin : cursor.Within source)
    (hnone : cursor.saved = []) : Disciplined source cursor moves where
  within before _ := hwithin.afterMoves before
  does _ _ hmoves _ _ := move_eq_iff (hwithin.afterMoves _) (h.saved_ne_nil hmoves)
  returns outer inner hinner _ := by rw [afterMoves_append, afterMoves_bracket hinner]
  paired before hmoves := by
    obtain ⟨place, saved, hsaved⟩ := List.exists_cons_of_ne_nil (h.saved_ne_nil hmoves rfl)
    obtain ⟨outer, inner, hbefore, hinner, -⟩ := exists_save_of_saved hnone hsaved
    exact ⟨outer, inner, hbefore, hinner⟩

end Cursor

open Cursor in
/-- **Moves restore what they save and stay in their source.** Take any moves from the start
of a source whose restores have each a place to return to. All along, the cursor and what it
has saved are in the source, and each move does what is told of it there; a save and its
restore leave no trace, and every restore has its save. The same holds of the reads, saves
and restores that the moves are made of, down to those of a look in a longer move. Made at
once, the moves are the same. -/
theorem moves_restore_what_they_save (source : String) (moves : List Move)
    (hbacked : (ofString source).Backed moves) :
    Disciplined source.toList (ofString source) moves ∧
      ((ofString source).Makes ((ofString source).allSteps moves)
          ((ofString source).afterMoves moves) ∧
        Disciplined source.toList (ofString source) ((ofString source).allSteps moves)) ∧
      ∀ (cursor : Cursor) (test : Char → Bool), cursor.look = (cursor.peek, cursor) ∧
        cursor.stepIf test = cursor.takeIf test ∧
        cursor.stepWhile test = cursor.takeWhile test := by
  have hwithin := within_ofString source
  refine ⟨hbacked.disciplined hwithin rfl,
    ⟨hbacked.makes, hbacked.makes.backed.disciplined hwithin rfl⟩, fun cursor test => ?_⟩
  exact ⟨cursor.look_eq, cursor.stepIf_eq test, cursor.stepWhile_eq test⟩

open Cursor in
/-- Digits are gone over to the end of the source, where a look shows nothing. The restores
that follow lead back over a later place to the start. -/
theorem digits_gone_over_and_restored :
    (ofString "12").Backed
        [.save, .takeWhile Char.isDigit, .save, .look, .read, .restore, .restore] ∧
      Does ['1', '2'] ((ofString "12").afterMoves [.save]) (.takeWhile Char.isDigit)
        (.run ['1', '2']) ⟨⟨2, []⟩, [⟨0, ['1', '2']⟩]⟩ ∧
      (ofString "12").afterMoves
          [.save, .takeWhile Char.isDigit, .save, .look, .read, .restore, .restore] =
        ofString "12" := by
  have hlook : Move.Nested [.look, .read] :=
    .cons Move.noConfusion Move.noConfusion (.cons Move.noConfusion Move.noConfusion .nil)
  have hinner : Move.Nested [.takeWhile Char.isDigit, .save, .look, .read, .restore] :=
    .cons Move.noConfusion Move.noConfusion (.bracket hlook .nil)
  have hbacked := (Move.Nested.bracket hinner .nil).backed (ofString "12")
  have hrun : ((ofString "12").afterMoves [.save]).move (.takeWhile Char.isDigit) =
      (.run ['1', '2'], ⟨⟨2, []⟩, [⟨0, ['1', '2']⟩]⟩) := by
    rw [move, stepWhile_eq]
    rfl
  obtain ⟨hmoves, -, -⟩ := moves_restore_what_they_save "12" _ hbacked
  refine ⟨hbacked, ?_, hmoves.returns [] _ hinner ⟨[], rfl⟩⟩
  exact (hmoves.does [.save] (.takeWhile Char.isDigit) ⟨_, rfl⟩ _ _).1 hrun

end Calculator
