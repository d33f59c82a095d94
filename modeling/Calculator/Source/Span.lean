/-!
# Spans

A position counts the characters before it. A `Span` runs from a position
to a later one and holds the characters between them, and a `Located`
value is one that a span of the source gave rise to.
-/

namespace Calculator

/-- The characters from position `start` up to, and not including, `stop`. -/
structure Span where
  start : Nat
  stop : Nat
deriving DecidableEq, Repr

namespace Span

/-- The span of the one character at a position. -/
def single (pos : Nat) : Span := ⟨pos, pos + 1⟩

/-- The span between a position and itself, which holds nothing. -/
def empty (pos : Nat) : Span := ⟨pos, pos⟩

/-- **The characters a span holds** in a source. -/
def slice (span : Span) (source : List Char) : List Char :=
  (source.take span.stop).drop span.start

@[simp] theorem slice_empty (pos : Nat) (source : List Char) : (empty pos).slice source = [] := by
  simp [slice, empty]

end Span

/-- A value and the span it comes from. -/
structure Located (α : Type) where
  value : α
  span : Span
deriving DecidableEq, Repr

namespace Located

variable {α β : Type}

/-- Changes the value and keeps the span. -/
def map (f : α → β) (located : Located α) : Located β := ⟨f located.value, located.span⟩

/-- The text of a located value names the position it starts at. -/
def text (valueText : α → String) (located : Located α) : String :=
  valueText located.value ++ " at position " ++ toString located.span.start

end Located

end Calculator
