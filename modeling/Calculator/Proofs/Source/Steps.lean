import Calculator.Source.Cursor
/-!
# Moves character by character

A cursor can make all its moves with reads alone. It looks at a character by reading
it and returning to the place saved before (`Cursor.look`), and it goes over a run of
characters by looking at each of them (`Cursor.stepWhile`). Each of these is a move
that a cursor makes at once (`look_eq`, `stepIf_eq`, `stepWhile_eq`), so however many
places were saved on the way, those saved before are all that is left.
-/

namespace Calculator

namespace Cursor

variable {cursor after : Cursor} {test : Char → Bool} {c : Char}

/-- A move leaves ahead what it does not go over. -/
theorem ahead_advance (cursor : Cursor) (n : Nat) :
    (cursor.advance n).ahead = cursor.ahead.drop n := rfl

/-- Behind a run of characters lies what follows it. -/
theorem ahead_takeWhile (cursor : Cursor) (test : Char → Bool) :
    (cursor.takeWhile test).2.ahead = cursor.ahead.dropWhile test := by
  have hdrop : (cursor.ahead.takeWhile test ++ cursor.ahead.dropWhile test).drop
      (cursor.ahead.takeWhile test).length = cursor.ahead.dropWhile test := List.drop_left
  rwa [List.takeWhile_append_dropWhile] at hdrop

/-- Moves in turn are one move. -/
theorem advance_advance (cursor : Cursor) (m n : Nat) :
    (cursor.advance m).advance n = cursor.advance (m + n) := by
  obtain ⟨⟨pos, ahead⟩, saved⟩ := cursor
  simp only [advance, Place.advance, List.drop_drop, List.length_take, List.length_drop]
  congr 2
  omega

/-- **A look at the next character**: it is read, and the cursor returns. -/
def look (cursor : Cursor) : Option Char × Cursor :=
  let (c, after) := cursor.save.read
  (c, after.restore)

/-- Goes over the next character if a look says that it passes the test. -/
def stepIf (cursor : Cursor) (test : Char → Bool) : Option Char × Cursor :=
  match cursor.look with
  | (some c, cursor) => if test c then cursor.read else (none, cursor)
  | (none, cursor) => (none, cursor)

@[simp] theorem look_eq (cursor : Cursor) : cursor.look = (cursor.peek, cursor) := rfl

@[simp] theorem stepIf_eq (cursor : Cursor) (test : Char → Bool) :
    cursor.stepIf test = cursor.takeIf test := by
  rw [stepIf, takeIf, look_eq]
  cases cursor.peek <;> rfl

/-- **A character is gone over if it passes the test**, and else the cursor stays. -/
theorem takeIf_cases (cursor : Cursor) (test : Char → Bool) :
    (∃ c rest, cursor.ahead = c :: rest ∧ test c ∧
      cursor.takeIf test = (some c, cursor.advance 1)) ∨
    (∀ c ∈ cursor.ahead.head?, test c = false) ∧ cursor.takeIf test = (none, cursor) := by
  rw [takeIf, read, peek]
  cases cursor.ahead with
  | nil => exact .inr ⟨nofun, rfl⟩
  | cons c rest =>
    cases htest : test c with
    | true => exact .inl ⟨c, rest, rfl, htest, by simp [htest]⟩
    | false =>
      refine .inr ⟨?_, by simp [htest]⟩
      rintro _ ⟨⟩
      exact htest

/-- A character that is gone over is ahead no longer. -/
theorem length_ahead_takeIf (h : cursor.takeIf test = (some c, after)) :
    after.ahead.length < cursor.ahead.length := by
  obtain ⟨d, rest, hahead, -, htake⟩ | ⟨-, htake⟩ := cursor.takeIf_cases test
  · cases htake.symm.trans h
    rw [ahead_advance, hahead]
    exact Nat.lt_succ_self _
  · cases htake.symm.trans h

/-- **Goes over characters one by one** as long as they pass the test. -/
def stepWhile (cursor : Cursor) (test : Char → Bool) : List Char × Cursor :=
  match h : cursor.stepIf test with
  | (some c, after) =>
    have := length_ahead_takeIf (cursor.stepIf_eq test ▸ h)
    let (taken, last) := after.stepWhile test
    (c :: taken, last)
  | (none, after) => ([], after)
termination_by cursor.ahead.length

/-- A character that passes is gone over, and then as many as follow. -/
theorem stepWhile_of_pass (h : cursor.stepIf test = (some c, after)) :
    cursor.stepWhile test = (c :: (after.stepWhile test).1, (after.stepWhile test).2) := by
  rw [stepWhile]
  split <;> rename_i h' <;> cases h.symm.trans h'
  rfl

/-- Where none passes, none is gone over. -/
theorem stepWhile_of_refuse (h : cursor.stepIf test = (none, after)) :
    cursor.stepWhile test = ([], after) := by
  rw [stepWhile]
  split <;> rename_i h' <;> cases h.symm.trans h'
  rfl

/-- **They are the longest run that passes.** -/
@[simp] theorem stepWhile_eq (cursor : Cursor) (test : Char → Bool) :
    cursor.stepWhile test = cursor.takeWhile test := by
  fun_induction stepWhile cursor test with
  | case1 cursor c after h hlt taken last heq ih =>
    obtain ⟨d, rest, hahead, htest, htake⟩ | ⟨-, htake⟩ := cursor.takeIf_cases test
    · cases ((cursor.stepIf_eq test).trans htake).symm.trans h
      have hrest : (cursor.advance 1).ahead = rest := by
        rw [ahead_advance, hahead, List.drop_one, List.tail_cons]
      rw [heq, takeWhile, hrest] at ih
      obtain ⟨rfl, rfl⟩ := Prod.mk.inj ih
      rw [takeWhile, hahead, List.takeWhile_cons, if_pos htest, advance_advance]
      simp [Nat.add_comm]
    · cases ((cursor.stepIf_eq test).trans htake).symm.trans h
  | case2 cursor after h =>
    obtain ⟨d, rest, -, -, htake⟩ | ⟨hstop, htake⟩ := cursor.takeIf_cases test
    · cases ((cursor.stepIf_eq test).trans htake).symm.trans h
    · cases ((cursor.stepIf_eq test).trans htake).symm.trans h
      have hnone : cursor.ahead.takeWhile test = [] := by
        cases hahead : cursor.ahead with
        | nil => rfl
        | cons c rest => simp [hstop c (by rw [hahead]; rfl)]
      rw [takeWhile, hnone]
      simp [advance]

end Cursor

end Calculator
