import Calculator.Expr.Eval
import Calculator.Proofs.Number.Positive
/-!
# Factorials

The factorial of a float is what a loop comes to that multiplies one factor after the
other, as long as the factor is none above the float and the product is finite. The
factors are exact as far as it goes, so it makes a round for each number up to the float
(`Factorial.Loop.ends`), and the product of a hundred and seventy-one factors is beyond
all numbers, so it makes a hundred and seventy rounds at the most, whatever the float is.
-/

namespace Calculator

open Binary64

variable {x : Float} {n : ℕ}

namespace Factorial

/-! ## The products -/

/-- The product of so many factors from two on, rounded at each step. -/
def rounds (count : ℕ) : Float := (List.range' 2 count).foldl (fun p k => p * Float.ofNat k) 1.0

/-- **The product of all numbers up to one**, from the least up and rounded at each step. -/
def rounded (n : ℕ) : Float := rounds (n - 1)

/-- One factor more. -/
theorem rounds_succ (count : ℕ) : rounds (count + 1) = rounds count * Float.ofNat (count + 2) := by
  rw [rounds, List.range'_concat, List.foldl_append, one_mul, Nat.add_comm 2]
  rfl

/-- The last product that is finite, and what one factor more makes of it. -/
theorem rounds_last : (rounds 169).isFinite ∧ rounds 169 * Float.ofNat 171 = infinity := by
  decide +kernel

theorem rounds_overflow : rounds 170 = infinity := (rounds_succ 169).trans rounds_last.2

/-- **No product with more factors is finite again.** -/
theorem rounds_eq_infinity {count : ℕ} (h : 170 ≤ count) : rounds count = infinity := by
  induction count, h using Nat.le_induction with
  | base => exact rounds_overflow
  | succ count _ ih => rw [rounds_succ, ih, infinity_mul (positive_toFloat (by omega))]

/-- **And each with fewer is finite.** -/
theorem isFinite_rounds {count : ℕ} (h : count ≤ 169) : (rounds count).isFinite := by
  induction h using Nat.decreasingInduction with
  | self => exact rounds_last.1
  | of_succ count _ ih =>
    rw [rounds_succ] at ih
    exact isFinite_of_mul ih

theorem not_isFinite_infinity : infinity.isFinite = false := by
  decide +kernel

/-- So it is finite as long as the numbers are below `overflow`. -/
theorem isFinite_rounded_iff : (rounded n).isFinite ↔ n ≤ 170 := by
  constructor
  · intro hfinite
    by_contra hlarge
    rw [rounded, rounds_eq_infinity (by omega), not_isFinite_infinity] at hfinite
    cases hfinite
  · intro hsmall
    exact isFinite_rounds (by omega)

/-- And from there on it is the infinity. -/
theorem rounded_eq_infinity_iff : rounded n = infinity ↔ 171 ≤ n := by
  constructor
  · intro hinfinite
    by_contra hsmall
    have hfinite := isFinite_rounded_iff.2 (show n ≤ 170 by omega)
    rw [hinfinite, not_isFinite_infinity] at hfinite
    cases hfinite
  · intro hlarge
    exact rounds_eq_infinity (by omega)

/-- **No factor beyond `overflow` has to be multiplied.** -/
theorem product_eq_rounded (n : ℕ) : product n = rounded n := by
  have hproduct : product n = rounds (min n overflow - 1) := rfl
  rw [hproduct, rounded]
  rcases Nat.le_total n overflow with hsmall | hlarge
  · rw [Nat.min_eq_left hsmall]
  · rw [overflow] at *
    rw [Nat.min_eq_right hlarge, rounds_eq_infinity le_rfl, rounds_eq_infinity (by omega)]

/-! ## The loop -/

/-- **A loop over the factors**: the product of those before, and the next one. -/
structure Loop where
  product : Float
  factor : Float

namespace Loop

/-- No factor has been multiplied, and two is the next. -/
def start : Loop := ⟨1.0, 2.0⟩

/-- It goes on as long as the factor is none above the float and the product is finite. -/
def goesOn (x : Float) (loop : Loop) : Bool := decide (loop.factor ≤ x) && loop.product.isFinite

/-- A round of it. -/
def next (loop : Loop) : Loop := ⟨loop.product * loop.factor, loop.factor + 1.0⟩

/-- **It ends after so many rounds, with a product.** -/
inductive Ends (x : Float) : Loop → ℕ → Float → Prop
  | stop {loop : Loop} : loop.goesOn x = false → Ends x loop 0 loop.product
  | round {loop : Loop} {count : ℕ} {product : Float} : loop.goesOn x = true →
      Ends x loop.next count product → Ends x loop (count + 1) product

/-- The loop after so many rounds. -/
def after (count : ℕ) : Loop := ⟨rounds count, Float.ofNat (count + 2)⟩

theorem after_zero : after 0 = start := by
  have htwo : Float.ofNat 2 = 2.0 := by decide +kernel
  rw [after, htwo]
  rfl

/-- The factors are the numbers themselves as far as the loop can go. -/
theorem factor_succ : ∀ count < 170, Float.ofNat (count + 2) + 1.0 = Float.ofNat (count + 3) := by
  decide +kernel

theorem integer?_factor : ∀ count < 171,
    (ofFloat (Float.ofNat (count + 2))).integer? = some ((count + 2 : ℕ) : ℤ) := by
  decide +kernel

theorem next_after {count : ℕ} (h : count < 170) : (after count).next = after (count + 1) := by
  rw [next, after, after, rounds_succ, factor_succ count h]

/-- **It goes on up to the float, or until the product is beyond all numbers.** -/
theorem goesOn_after_iff {count : ℕ} (hx : (ofFloat x).value? = some (n : ℚ))
    (h : count ≤ 170) : (after count).goesOn x ↔ count < min (n - 1) 170 := by
  have hfactor := integer?_eq_some_iff.1 (integer?_factor count (by omega))
  have hle : Float.ofNat (count + 2) ≤ x ↔ count + 2 ≤ n := by
    rw [le_iff_of_value hfactor hx]
    norm_cast
  have hfinite : (rounds count).isFinite ↔ count + 1 ≤ 170 :=
    isFinite_rounded_iff (n := count + 1)
  rw [goesOn, after, Bool.and_eq_true, decide_eq_true_iff, hle, hfinite]
  omega

/-- **So it ends there.** -/
theorem ends_after (hx : (ofFloat x).value? = some (n : ℚ)) {count left : ℕ}
    (h : count + left = min (n - 1) 170) :
    Ends x (after count) left (rounds (min (n - 1) 170)) := by
  induction left generalizing count with
  | zero =>
    have hstop : (after count).goesOn x = false := by
      rw [Bool.eq_false_iff, Ne, goesOn_after_iff hx (by omega)]
      omega
    rw [← h]
    exact .stop hstop
  | succ left ih =>
    refine .round ((goesOn_after_iff hx (by omega)).2 (by omega)) ?_
    rw [next_after (by omega)]
    exact ih (by omega)

/-- **From the start it makes a round for each factor** up to the float, and comes to the
product of them all. -/
theorem ends_start (hx : (ofFloat x).value? = some (n : ℚ)) :
    Ends x start (min (n - 1) 170) (rounded n) := by
  have hends : Ends x (after 0) (min (n - 1) 170) (rounds (min (n - 1) 170)) :=
    ends_after hx (Nat.zero_add _)
  rw [after_zero] at hends
  rcases Nat.le_total (n - 1) 170 with hsmall | hlarge
  · rwa [Nat.min_eq_left hsmall] at hends ⊢
  · rw [Nat.min_eq_right hlarge] at hends ⊢
    rwa [rounded, rounds_eq_infinity hlarge, ← rounds_overflow]

end Loop

end Factorial

/-! ## Which floats have a factorial -/

/-- A float stands for no number if it is none or infinite. -/
theorem value?_eq_none_iff : (ofFloat x).value? = none ↔ x.isNaN ∨ x.isInf := by
  show _ ↔ x.toModel.unpack.isNaN = true ∨ x.toModel.unpack.isInf = true
  rw [ofFloat_eq]
  cases x.toModel.unpack with
  | notANumber => exact iff_of_true rfl (.inl rfl)
  | infinity => exact iff_of_true rfl (.inr rfl)
  | zero | finite => exact iff_of_false nofun nofun

/-- **It has no integer** if it stands for no number, or for one with a fractional part. -/
theorem integer?_eq_none_iff : (ofFloat x).integer? = none ↔
    x.isNaN ∨ x.isInf ∨ ∃ q, (ofFloat x).value? = some q ∧ Int.fract q ≠ 0 := by
  rw [← or_assoc, ← value?_eq_none_iff]
  cases hvalue : (ofFloat x).value? with
  | none =>
    refine iff_of_true (Option.eq_none_iff_forall_ne_some.2 fun n hn => ?_) (.inl rfl)
    rw [integer?_eq_some_iff, hvalue] at hn
    cases hn
  | some q =>
    simp only [reduceCtorEq, false_or, Option.some_inj, exists_eq_left']
    constructor
    · intro hnone hfract
      have hfloor : (⌊q⌋ : ℚ) = q := by
        have hsum := Int.floor_add_fract q
        rwa [hfract, add_zero] at hsum
      rw [← hfloor, ← integer?_eq_some_iff, hnone] at hvalue
      cases hvalue
    · intro hfract
      refine Option.eq_none_iff_forall_ne_some.2 fun n hn => hfract ?_
      rw [integer?_eq_some_iff, hvalue, Option.some_inj] at hn
      rw [hn, Int.fract_intCast]

/-- **Its factorial is told by its integer.** -/
theorem factorial_eq_of_integer {n : ℤ} (h : (ofFloat x).value? = some (n : ℚ)) :
    factorial x = if n < 0 then .error (.negativeFactorial x)
      else .ok (Factorial.rounded n.toNat) := by
  rw [factorial, integer?_eq_some_iff.2 h]
  dsimp only
  rw [Factorial.product_eq_rounded]

/-- **The factorial of every float.** It fails as that of no integer if the float is no
number, is infinite or has a fractional part, and only then; it fails as that of a
negative number if the float is an integer below zero, and only then. Else the float is a
natural number, a zero of either sign among them. A loop over the factors then ends, in
a hundred and seventy rounds at the most however large the float is, with the product of
all numbers up to it, rounded from the least up. It is finite up to a hundred and
seventy, and the infinity from there on. -/
theorem factorial_of_every_float (x : Float) :
    (factorial x = .error (.nonIntegerFactorial x) ↔
      x.isNaN ∨ x.isInf ∨ ∃ q, (ofFloat x).value? = some q ∧ Int.fract q ≠ 0) ∧
    (factorial x = .error (.negativeFactorial x) ↔
      ∃ n : ℤ, (ofFloat x).value? = some (n : ℚ) ∧ n < 0) ∧
    ∀ n : ℕ, (ofFloat x).value? = some (n : ℚ) →
      factorial x = .ok (Factorial.rounded n) ∧
      (∃ count ≤ 170, Factorial.Loop.Ends x .start count (Factorial.rounded n)) ∧
      ((Factorial.rounded n).isFinite ↔ n ≤ 170) ∧
      (Factorial.rounded n = infinity ↔ 171 ≤ n) := by
  refine ⟨?_, ?_, fun n hx => ⟨?_, ⟨_, Nat.min_le_right _ _, Factorial.Loop.ends_start hx⟩,
    Factorial.isFinite_rounded_iff, Factorial.rounded_eq_infinity_iff⟩⟩
  · rw [← integer?_eq_none_iff]
    cases hinteger : (ofFloat x).integer? with
    | none => simp [factorial, hinteger]
    | some n =>
      rw [factorial_eq_of_integer (integer?_eq_some_iff.1 hinteger)]
      split_ifs <;> simp
  · constructor
    · intro herror
      cases hinteger : (ofFloat x).integer? with
      | none =>
        rw [factorial, hinteger] at herror
        cases herror
      | some n =>
        have hvalue := integer?_eq_some_iff.1 hinteger
        rw [factorial_eq_of_integer hvalue] at herror
        split_ifs at herror with hnegative
        exact ⟨n, hvalue, hnegative⟩
    · rintro ⟨n, hvalue, hnegative⟩
      rw [factorial_eq_of_integer hvalue, if_pos hnegative]
  · have hvalue : (ofFloat x).value? = some ((n : ℤ) : ℚ) := by exact_mod_cast hx
    rw [factorial_eq_of_integer hvalue, if_neg (by omega), Int.toNat_natCast]

/-- The zero below zero has a factorial, and a loop ends for a number that counting by one
never comes to. -/
theorem factorial_beyond_counting :
    (ofFloat (-0.0)).value? = some ((0 : ℕ) : ℚ) ∧ factorial (-0.0) = .ok 1.0 ∧
    (ofFloat (Float.ofBits 0x43B0000000000000)).value? = some ((2 ^ 60 : ℕ) : ℚ) ∧
    factorial (Float.ofBits 0x43B0000000000000) = .ok infinity ∧
    ∃ count ≤ 170,
      Factorial.Loop.Ends (Float.ofBits 0x43B0000000000000) .start count infinity := by
  have hzero : (ofFloat (-0.0)).value? = some ((0 : ℕ) : ℚ) :=
    integer?_eq_some_iff.1 (by decide +kernel : (ofFloat (-0.0)).integer? = some 0)
  have hlarge : (ofFloat (Float.ofBits 0x43B0000000000000)).value? = some ((2 ^ 60 : ℕ) : ℚ) :=
    integer?_eq_some_iff.1
      (by decide +kernel : (ofFloat (Float.ofBits 0x43B0000000000000)).integer? = some (2 ^ 60))
  obtain ⟨-, -, hnatural⟩ := factorial_of_every_float (-0.0)
  obtain ⟨hproduct, -, -⟩ := hnatural 0 hzero
  obtain ⟨-, -, hnatural'⟩ := factorial_of_every_float (Float.ofBits 0x43B0000000000000)
  obtain ⟨hproduct', hloop, -, hinfinite⟩ := hnatural' (2 ^ 60) hlarge
  rw [hinfinite.2 (by norm_num)] at hproduct' hloop
  exact ⟨hzero, hproduct, hlarge, hproduct', hloop⟩

end Calculator
