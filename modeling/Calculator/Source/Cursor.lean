import Calculator.Source.Span
/-!
# Cursors

A cursor stands at a place in a source and remembers places to return to.
A place holds the characters that lie ahead of it, so every move is
`Place.advance`, which goes over a number of them and never past the end
(`Place.In.advance`: it stays a place of its source). `save` and
`restore` bracket a look ahead of any length.
-/

namespace Calculator

/-- A place in a source: how many characters lie behind it, and those ahead. -/
structure Place where
  pos : Nat
  ahead : List Char
deriving DecidableEq, Repr

namespace Place

/-- Goes over `n` characters, or over all of them if fewer are ahead. -/
def advance (place : Place) (n : Nat) : Place :=
  ⟨place.pos + (place.ahead.take n).length, place.ahead.drop n⟩

@[simp] theorem advance_zero (place : Place) : place.advance 0 = place := by
  simp [advance]

@[simp] theorem ahead_advance (place : Place) (n : Nat) :
    (place.advance n).ahead = place.ahead.drop n := rfl

/-- The place is one of the source: what lies ahead of it is the source
from its position on. -/
def In (place : Place) (source : List Char) : Prop :=
  place.pos ≤ source.length ∧ place.ahead = source.drop place.pos

/-- **No move leaves the source.** -/
theorem In.advance {place : Place} {source : List Char} (h : place.In source) (n : Nat) :
    (place.advance n).In source := by
  obtain ⟨hle, hahead⟩ := h
  refine ⟨?_, ?_⟩
  · simp only [Place.advance, hahead, List.length_take, List.length_drop]
    omega
  · simp only [Place.advance, hahead, List.length_take, List.length_drop, List.drop_drop]
    rcases Nat.le_total n (source.length - place.pos) with hn | hn
    · rw [Nat.min_eq_left hn]
    · rw [Nat.min_eq_right hn, List.drop_eq_nil_of_le (by omega),
        List.drop_eq_nil_of_le (by omega)]

end Place

/-- A place in a source, and the places saved to return to, the latest first. -/
structure Cursor where
  place : Place
  saved : List Place
deriving DecidableEq, Repr

namespace Cursor

/-- A cursor at the start of a source. -/
def ofSource (source : List Char) : Cursor := ⟨⟨0, source⟩, []⟩

/-- A cursor at the start of a text. -/
def ofString (source : String) : Cursor := ofSource source.toList

/-- How many characters lie behind the cursor. -/
def pos (cursor : Cursor) : Nat := cursor.place.pos

/-- The characters ahead of the cursor. -/
def ahead (cursor : Cursor) : List Char := cursor.place.ahead

/-- Nothing lies ahead. -/
def atEnd (cursor : Cursor) : Bool := cursor.ahead.isEmpty

/-- Goes over `n` characters; what is saved stays saved. -/
def advance (cursor : Cursor) (n : Nat) : Cursor :=
  { cursor with place := cursor.place.advance n }

/-- The next character, which stays ahead. -/
def peek (cursor : Cursor) : Option Char := cursor.ahead.head?

/-- The next character, and the cursor behind it. At the end there is none,
and the cursor stays. -/
def read (cursor : Cursor) : Option Char × Cursor := (cursor.peek, cursor.advance 1)

/-- Saves the place the cursor stands at. -/
def save (cursor : Cursor) : Cursor := { cursor with saved := cursor.place :: cursor.saved }

/-- Returns to the place saved last and forgets it. With none saved the
cursor stays. -/
def restore (cursor : Cursor) : Cursor :=
  match cursor.saved with
  | [] => cursor
  | place :: saved => ⟨place, saved⟩

/-- Goes over the next character if it passes the test. -/
def takeIf (cursor : Cursor) (test : Char → Bool) : Option Char × Cursor :=
  match cursor.peek with
  | some c => if test c then cursor.read else (none, cursor)
  | none => (none, cursor)

/-- Goes over the longest run of characters that pass the test. -/
def takeWhile (cursor : Cursor) (test : Char → Bool) : List Char × Cursor :=
  let taken := cursor.ahead.takeWhile test
  (taken, cursor.advance taken.length)

end Cursor

end Calculator
