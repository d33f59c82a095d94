import Mathlib
import Calculator.Number.Binary64
/-!
# The order of floats

A finite float stands for a rational number (`Binary64.value?`). The value that is read
off its bits is the one its operations unpack (`Binary64.ofFloat_eq`), and what is
unpacked has but one form, so to compare the forms is to compare the numbers
(`le_iff_of_value`).
-/

namespace Calculator

open Float.Model Float.Model.UnpackedFloat

namespace Binary64

/-- **The number a value is**, if it is finite. -/
def value? : Binary64 → Option ℚ
  | finite negative significand exponent =>
    some ((if negative then -(significand : ℚ) else significand) * 2 ^ exponent)
  | _ => none

/-- The sign of a float is a bit. -/
def isNegative : Sign → Bool
  | .negative => true
  | .positive => false

/-- The value of a float that was unpacked. -/
def ofUnpacked : UnpackedFloat → Binary64
  | .notANumber => notANumber
  | .infinity sign => infinite (isNegative sign)
  | .zero sign => finite (isNegative sign) 0 leastExponent
  | .finite sign significand exponent _ => finite (isNegative sign) significand exponent

/-! ## Unpacking -/

/-- The fields of the bits, as numbers. -/
theorem toNat_unpackMantissa (bits : BitVec 64) :
    (@unpackMantissa .binary64 bits).toNat = bits.toNat % leadingBit := by
  simp [unpackMantissa, leadingBit, BitVec.extractLsb]

theorem toNat_unpackExponent (bits : BitVec 64) :
    (@unpackExponent .binary64 bits).toNat = bits.toNat / leadingBit % 0x800 := by
  simp [unpackExponent, leadingBit, BitVec.extractLsb, Nat.shiftRight_eq_div_pow]

theorem toNat_unpackSign (bits : BitVec 64) :
    (@unpackSign .binary64 bits).toNat = bits.toNat / signBit % 2 := by
  simp [unpackSign, signBit, BitVec.extractLsb, Nat.shiftRight_eq_div_pow]

theorem isNegative_ofBitVec (bit : BitVec 1) :
    isNegative (Sign.ofBitVec bit) = (bit.toNat == 1) := by
  revert bit
  decide

/-- The significand of a normal value has its leading bit put back. -/
theorem toNat_leading_append (fraction : BitVec 52) :
    (1#1 ++ fraction).toNat = leadingBit + fraction.toNat := by
  rw [BitVec.toNat_append, ← Nat.shiftLeft_add_eq_or_of_lt fraction.isLt]
  simp [Nat.shiftLeft_eq, leadingBit]

/-- **The value read off the bits is the one that is unpacked.** -/
theorem ofFloat_eq (x : Float) : ofFloat x = ofUnpacked x.toModel.unpack := by
  have hbits : x.toBits.toNat = x.toModel.toBits.toBitVec.toNat := rfl
  have hbias : ((Format.binary64.exponentBias : ℕ) : ℤ) = 1023 := rfl
  unfold ofFloat Float.Model.unpack
  dsimp only
  rw [hbits]
  generalize x.toModel.toBits.toBitVec = bits
  rw [← toNat_unpackSign, ← toNat_unpackExponent, ← toNat_unpackMantissa, ← isNegative_ofBitVec]
  unfold UnpackedFloat.unpack
  dsimp only
  by_cases hones : @unpackExponent .binary64 bits = -1#_
  · have hfield : (@unpackExponent .binary64 bits).toNat = 0x7FF := by
      rw [hones]
      rfl
    rw [if_pos hones, hfield]
    by_cases hfraction : @unpackMantissa .binary64 bits = 0#_
    · rw [if_pos hfraction, hfraction]
      rfl
    · have hnat : (@unpackMantissa .binary64 bits).toNat ≠ 0 := fun h =>
        hfraction (BitVec.eq_of_toNat_eq h)
      rw [if_neg hfraction]
      simp [hnat, ofUnpacked]
  · have hfield : (@unpackExponent .binary64 bits).toNat ≠ 0x7FF := fun h =>
      hones (BitVec.eq_of_toNat_eq h)
    rw [if_neg hones, if_neg (by simpa using hfield)]
    by_cases hzero : @unpackExponent .binary64 bits = 0#_
    · rw [if_pos hzero]
      simp only [hzero, BitVec.toNat_zero, beq_self_eq_true, if_true]
      split
      · rename_i hfraction
        rw [hfraction]
        rfl
      · rw [hbias]
        rfl
    · have hnat : (@unpackExponent .binary64 bits).toNat ≠ 0 := fun h =>
        hzero (BitVec.eq_of_toNat_eq h)
      rw [if_neg hzero, if_neg (by simpa using hnat), ofUnpacked, toNat_leading_append, hbias,
        leastExponent]
      congr 1
      push_cast
      ring

/-! ## Forms -/

/-- **The one form of a finite value**: its significand has its leading bit, unless the
exponent is the least. -/
structure IsForm (significand : ℕ) (exponent : ℤ) : Prop where
  significand_lt : significand < 2 * leadingBit
  least_le : leastExponent ≤ exponent
  normal : exponent = leastExponent ∨ leadingBit ≤ significand

/-- What is unpacked is in that form. -/
theorem isForm_of_unpack {x : Float.Model} {sign : Sign} {significand : ℕ} {exponent : ℤ}
    {hpos : 0 < significand} (h : x.unpack = .finite sign significand exponent hpos) :
    IsForm significand exponent := by
  have hbias : ((Format.binary64.exponentBias : ℕ) : ℤ) = 1023 := rfl
  unfold Float.Model.unpack UnpackedFloat.unpack at h
  dsimp only at h
  rw [hbias] at h
  have hlt : (@unpackMantissa .binary64 x.toBits.toBitVec).toNat < leadingBit :=
    (@unpackMantissa .binary64 x.toBits.toBitVec).isLt
  split at h
  · split at h <;> cases h
  · split at h
    · rename_i hzero
      split at h
      · cases h
      · cases h
        rw [hzero]
        exact ⟨by omega, by decide, .inl (by decide)⟩
    · rename_i hzero
      have hfield : (@unpackExponent .binary64 x.toBits.toBitVec).toNat ≠ 0 := fun h =>
        hzero (BitVec.eq_of_toNat_eq h)
      cases h
      rw [toNat_leading_append]
      refine ⟨by omega, ?_, .inr (Nat.le_add_right _ _)⟩
      rw [leastExponent]
      omega

/-- **Of two forms the one with the greater exponent is the greater number.** -/
theorem value_lt_of_exponent_lt {m m' : ℕ} {e e' : ℤ} (h : IsForm m e) (h' : IsForm m' e')
    (hlt : e < e') : (m : ℚ) * 2 ^ e < m' * 2 ^ e' := by
  have hleading : leadingBit ≤ m' := h'.normal.resolve_left (by have := h.least_le; omega)
  have hdouble : m < 2 * m' := by
    have := h.significand_lt
    omega
  have hm : (m : ℚ) < 2 * m' := by exact_mod_cast hdouble
  have hpow : (2 : ℚ) ^ (e + 1) ≤ 2 ^ e' := zpow_le_zpow_right₀ (by norm_num) (by omega)
  calc (m : ℚ) * 2 ^ e < 2 * m' * 2 ^ e := by gcongr
    _ = m' * 2 ^ (e + 1) := by rw [zpow_add_one₀ (by norm_num)]; ring
    _ ≤ m' * 2 ^ e' := by gcongr

/-- So forms are compared as the numbers are. -/
theorem compare_forms {m m' : ℕ} {e e' : ℤ} (h : IsForm m e) (h' : IsForm m' e') :
    (compare e e').then (compare m m') = compare ((m : ℚ) * 2 ^ e) (m' * 2 ^ e') := by
  rcases lt_trichotomy e e' with hlt | rfl | hgt
  · rw [compare_lt_iff_lt.2 hlt, compare_lt_iff_lt.2 (value_lt_of_exponent_lt h h' hlt)]
    rfl
  · have hpos : (0 : ℚ) < 2 ^ e := by positivity
    rw [compare_eq_iff_eq.2 rfl, Ordering.eq_then]
    rcases lt_trichotomy m m' with hlt | rfl | hgt
    · rw [compare_lt_iff_lt.2 hlt, compare_lt_iff_lt.2 (by gcongr)]
    · rw [compare_eq_iff_eq.2 rfl, compare_eq_iff_eq.2 rfl]
    · rw [compare_gt_iff_gt.2 hgt, compare_gt_iff_gt.2 (by gcongr)]
  · rw [compare_gt_iff_gt.2 hgt, compare_gt_iff_gt.2 (value_lt_of_exponent_lt h' h hgt)]
    rfl

/-- A float stands for a number if it is a zero, or finite in the one form. -/
theorem unpack_cases {x : Float} {q : ℚ} (h : (ofFloat x).value? = some q) :
    (∃ sign, x.toModel.unpack = .zero sign ∧ q = 0) ∨
    ∃ sign significand exponent hpos,
      x.toModel.unpack = .finite sign significand exponent hpos ∧ IsForm significand exponent ∧
        q = (if isNegative sign then -(significand : ℚ) else significand) * 2 ^ exponent := by
  rw [ofFloat_eq] at h
  cases hunpack : x.toModel.unpack with
  | notANumber =>
    rw [hunpack] at h
    cases h
  | infinity sign =>
    rw [hunpack] at h
    cases h
  | zero sign =>
    rw [hunpack] at h
    cases h
    exact .inl ⟨sign, rfl, by simp⟩
  | finite sign significand exponent hpos =>
    rw [hunpack] at h
    cases h
    exact .inr ⟨sign, significand, exponent, hpos, rfl, isForm_of_unpack hunpack, rfl⟩

/-- Negation turns the order around. -/
theorem compare_neg_neg (p q : ℚ) : compare (-p) (-q) = (compare p q).swap := by
  rcases lt_trichotomy p q with hlt | rfl | hgt
  · rw [compare_lt_iff_lt.2 hlt, compare_gt_iff_gt.2 (neg_lt_neg hlt)]
    rfl
  · rw [compare_eq_iff_eq.2 rfl, compare_eq_iff_eq.2 rfl]
    rfl
  · rw [compare_gt_iff_gt.2 hgt, compare_lt_iff_lt.2 (neg_lt_neg hgt)]
    rfl

/-- What is unpacked is compared as the numbers are. -/
theorem compare_unpack {x y : Float} {p q : ℚ} (hx : (ofFloat x).value? = some p)
    (hy : (ofFloat y).value? = some q) :
    x.toModel.unpack.compare y.toModel.unpack = some (compare p q) := by
  have hnegative {m : ℕ} (e : ℤ) (hpos : 0 < m) : -(m : ℚ) * 2 ^ e < 0 := by
    have hvalue : (0 : ℚ) < m * 2 ^ e := by positivity
    linarith
  have hpositive {m : ℕ} (e : ℤ) (hpos : 0 < m) : 0 < (m : ℚ) * 2 ^ e := by positivity
  obtain ⟨sign, hux, rfl⟩ | ⟨sign, m, e, hpos, hux, hform, rfl⟩ := unpack_cases hx
  · obtain ⟨sign', huy, rfl⟩ | ⟨sign', m', e', hpos', huy, hform', rfl⟩ := unpack_cases hy
    · rw [hux, huy, compare_eq_iff_eq.2 rfl]
      rfl
    · rw [hux, huy]
      cases sign' with
      | negative => exact congrArg some (compare_gt_iff_gt.2 (hnegative e' hpos')).symm
      | positive => exact congrArg some (compare_lt_iff_lt.2 (hpositive e' hpos')).symm
  · obtain ⟨sign', huy, rfl⟩ | ⟨sign', m', e', hpos', huy, hform', rfl⟩ := unpack_cases hy
    · rw [hux, huy]
      cases sign with
      | negative => exact congrArg some (compare_lt_iff_lt.2 (hnegative e hpos)).symm
      | positive => exact congrArg some (compare_gt_iff_gt.2 (hpositive e hpos)).symm
    · rw [hux, huy]
      cases sign with
      | negative =>
        cases sign' with
        | negative =>
          have hswap := compare_neg_neg ((m : ℚ) * 2 ^ e) (m' * 2 ^ e')
          rw [← compare_forms hform hform', ← neg_mul, ← neg_mul] at hswap
          exact congrArg some hswap.symm
        | positive =>
          exact congrArg some
            (compare_lt_iff_lt.2 ((hnegative e hpos).trans (hpositive e' hpos'))).symm
      | positive =>
        cases sign' with
        | negative =>
          exact congrArg some
            (compare_gt_iff_gt.2 ((hnegative e' hpos').trans (hpositive e hpos))).symm
        | positive => exact congrArg some (compare_forms hform hform')

/-- **Floats are in the order of the numbers they stand for.** -/
theorem le_iff_of_value {x y : Float} {p q : ℚ} (hx : (ofFloat x).value? = some p)
    (hy : (ofFloat y).value? = some q) : x ≤ y ↔ p ≤ q := by
  have hle : x ≤ y ↔ x.toModel.unpack.le y.toModel.unpack = true := by
    show decide (x.toModel.unpack.le y.toModel.unpack = true) = true ↔ _
    rw [decide_eq_true_iff]
  rw [hle, UnpackedFloat.le, compare_unpack hx hy, Option.any_some, Ordering.isLE_iff_ne_gt]
  exact (not_congr compare_gt_iff_gt).trans not_lt

/-! ## Integers -/

/-- A power of two is the quotient of two whole ones. -/
theorem two_zpow_eq (exponent : ℤ) :
    (2 : ℚ) ^ exponent = 2 ^ exponent.toNat / 2 ^ (-exponent).toNat := by
  rw [eq_div_iff (by positivity), ← zpow_natCast, ← zpow_natCast, ← zpow_add₀ (by norm_num)]
  congr 1
  omega

/-- So an equation with an integer is one between integers. -/
theorem mul_two_zpow_eq_iff {m n exponent : ℤ} :
    (m : ℚ) * 2 ^ exponent = n ↔ m * 2 ^ exponent.toNat = n * 2 ^ (-exponent).toNat := by
  rw [two_zpow_eq, mul_div_assoc', div_eq_iff (by positivity)]
  norm_cast

/-- **The integer of a value** is the number that it is. -/
theorem integer?_eq_some_iff {value : Binary64} {n : ℤ} :
    value.integer? = some n ↔ value.value? = some (n : ℚ) := by
  cases value with
  | notANumber => simp [integer?, value?]
  | infinite negative => simp [integer?, value?]
  | finite negative significand exponent =>
    have hsigned : (if negative then -(significand : ℚ) else significand) =
        ((if negative then -(significand : ℤ) else significand : ℤ) : ℚ) := by
      split_ifs <;> norm_cast
    rw [value?, Option.some_inj, hsigned, mul_two_zpow_eq_iff, integer?]
    simp only [Nat.pow_eq]
    have hpos : 0 < 2 ^ (-exponent).toNat := by positivity
    by_cases hdvd : 2 ^ (-exponent).toNat ∣ significand
    · obtain ⟨c, rfl⟩ := hdvd
      rw [if_pos (by simp), Nat.mul_div_cancel_left c hpos, Option.some_inj,
        ← mul_left_inj' (c := (2 : ℤ) ^ (-exponent).toNat) (by positivity), ← eq_iff_iff]
      congr 1
      split_ifs <;> push_cast <;> ring
    · rw [if_neg (by simpa [Nat.dvd_iff_mod_eq_zero] using hdvd)]
      refine iff_of_false (by simp) fun heq => hdvd ?_
      -- Where the quotient is not by one, the exponent adds no factor.
      have hexponent : exponent.toNat = 0 := by
        by_contra hne
        have hzero : (-exponent).toNat = 0 := by omega
        exact hdvd (by simp [hzero])
      rw [hexponent, pow_zero, mul_one] at heq
      have hsigned : (2 : ℤ) ^ (-exponent).toNat ∣
          if negative then -(significand : ℤ) else significand := ⟨n, heq.trans (mul_comm _ _)⟩
      have hnatural : ((2 ^ (-exponent).toNat : ℕ) : ℤ) ∣ significand := by
        split_ifs at hsigned
        · simpa using hsigned
        · simpa using hsigned
      exact Int.natCast_dvd_natCast.1 hnatural

end Binary64

end Calculator
