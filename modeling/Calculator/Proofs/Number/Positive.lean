import Calculator.Proofs.Number.Order
import Calculator.Proofs.Number.Unsigned
/-!
# Floats above zero

A natural number above zero is rounded to a float above zero, however large it is
(`positive_toFloat`): rounding never takes a number that is not too small to zero
(`positive_round`), and neither does packing (`Positive.unpack_pack`). So a product
that is infinite once stays so (`Binary64.infinity_mul`), and one that is finite has
been finite all along (`Binary64.isFinite_of_mul`).
-/

namespace Calculator

open Float.Model Float.Model.UnpackedFloat

/-- **A number above zero, as rounding gives it**: the infinity, or a significand of no
more bits than fit, with an exponent from the least one up. -/
inductive Positive : UnpackedFloat → Prop
  | infinity : Positive (.infinity .positive)
  | finite {significand : ℕ} {exponent : ℤ} {h : 0 < significand} :
      significand < 2 * Binary64.leadingBit → Binary64.leastExponent ≤ exponent →
      Positive (.finite .positive significand exponent h)

/-- Dropping bits one by one drops them all. -/
theorem mantissa_shiftRight (em : ExtendedMantissa) (n : ℕ) :
    (em >>> n).mantissa = em.mantissa / 2 ^ n := by
  induction n with
  | zero => simp [HShiftRight.hShiftRight, Nat.repeat]
  | succ n ih =>
    show (em >>> n).mantissa / 2 = _
    rw [ih, Nat.div_div_eq_div_mul, pow_succ]

theorem mantissa_shift (m : ℕ) (e : ℤ) :
    (shiftToTargetExponent .binary64 m e .exact).1.mantissa =
      m / 2 ^ (Format.binary64.targetExponent (totalExponent m e) - e).toNat :=
  mantissa_shiftRight _ _

/-- **A shift keeps a number that is not too small above zero**, and cuts it to the bits
that fit. -/
theorem shift_bounds {m : ℕ} {e : ℤ} (hm : 0 < m) (h : -1074 ≤ m.log2 + e) :
    0 < (shiftToTargetExponent .binary64 m e .exact).1.mantissa ∧
    (shiftToTargetExponent .binary64 m e .exact).1.mantissa < 2 * Binary64.leadingBit ∧
    -1074 ≤ (shiftToTargetExponent .binary64 m e .exact).2 := by
  have htarget : Format.binary64.targetExponent (totalExponent m e) =
      max (m.log2 + 1 + e - 53) (-1074) := rfl
  have hlow := Nat.log2_self_le hm.ne'
  have hhigh := Nat.lt_log2_self (n := m)
  have hexponent : (shiftToTargetExponent .binary64 m e .exact).2 =
      e + (Format.binary64.targetExponent (totalExponent m e) - e).toNat := rfl
  rw [mantissa_shift, hexponent, htarget]
  generalize hn : (max ((m.log2 : ℤ) + 1 + e - 53) (-1074) - e).toNat = n
  refine ⟨Nat.div_pos ?_ (by positivity), ?_, by omega⟩
  · exact (Nat.pow_le_pow_right two_pos (by omega)).trans hlow
  · rw [Nat.div_lt_iff_lt_mul (by positivity)]
    have hbits : m.log2 + 1 ≤ 53 + n := by omega
    calc m < 2 ^ (m.log2 + 1) := hhigh
      _ ≤ 2 ^ (53 + n) := Nat.pow_le_pow_right two_pos hbits
      _ = 2 * Binary64.leadingBit * 2 ^ n := by rw [pow_add]; rfl

/-- Rounding to the nearest significand never goes below the one that was cut. -/
theorem mantissa_le_roundedMantissa (em : ExtendedMantissa) : em.mantissa ≤ em.roundedMantissa := by
  obtain ⟨mantissa, _ | _, _ | _⟩ := em
  · exact le_rfl
  · exact le_rfl
  · exact Nat.le_add_right _ _
  · exact Nat.le_add_right _ _

/-- **So a number that is not too small is rounded to one above zero.** -/
theorem positive_round {m : ℕ} {e : ℤ} (hm : 0 < m) (h : -1074 ≤ m.log2 + e) :
    Positive (roundWithAccuracy .binary64 .positive m e .exact) := by
  obtain ⟨hpos, -, hleast⟩ := shift_bounds hm h
  unfold roundWithAccuracy
  dsimp only
  generalize shiftToTargetExponent .binary64 m e .exact = shifted at *
  have hrounded := hpos.trans_le (mantissa_le_roundedMantissa shifted.1)
  obtain ⟨hpos', hlt', hleast'⟩ := shift_bounds (e := shifted.2) hrounded (by omega)
  rw [dif_neg hpos'.ne']
  exact .finite hlt' hleast'

/-- A field that is not all ones, with a fraction that is not nothing if the field is,
is unpacked above zero. -/
theorem positive_unpack_packComponents {field : BitVec 11} {fraction : BitVec 52}
    (hones : field ≠ -1#_) (hsome : field = 0#_ → fraction ≠ 0#_) :
    Positive
      (UnpackedFloat.unpack .binary64 (packComponents .binary64 .positive field fraction)) := by
  have hsign : Sign.ofBitVec 0#1 = .positive := rfl
  have hbias : ((Format.binary64.exponentBias : ℕ) : ℤ) = 1023 := rfl
  have hfraction : fraction.toNat < 2 ^ 52 := fraction.isLt
  unfold UnpackedFloat.unpack
  simp only [unpackMantissa_packComponents, unpackExponent_packComponents,
    unpackSign_packComponents, hsign, if_neg hones]
  split
  · rename_i hzero
    rw [dif_neg (hsome hzero), hzero]
    exact .finite (by rw [Binary64.leadingBit]; omega) (by decide)
  · rename_i hzero
    have hfield : field.toNat ≠ 0 := fun h => hzero (BitVec.eq_of_toNat_eq h)
    refine .finite ?_ ?_
    · rw [Binary64.toNat_leading_append, Binary64.leadingBit]
      omega
    · rw [hbias, Binary64.leastExponent]
      omega

/-- **What is packed above zero is unpacked above zero.** -/
theorem Positive.unpack_pack {u : UnpackedFloat} (h : Positive u) :
    Positive (Float.Model.pack u).unpack := by
  show Positive (UnpackedFloat.unpack .binary64 (UnpackedFloat.pack .binary64 u))
  rcases h with _ | @⟨m, e, hpos, hlt, hleast⟩
  · exact .infinity
  · have hbias : ((Format.binary64.exponentBias : ℕ) : ℤ) = 1023 := rfl
    have hbits : Format.binary64.mantissaBits = 53 := rfl
    rw [Binary64.leastExponent] at hleast
    unfold UnpackedFloat.pack
    dsimp only
    rw [hbias, hbits]
    have hbiased : 0 < (e + 1023 + (52 : ℕ)).toNat := by omega
    generalize (e + 1023 + (52 : ℕ)).toNat = biased at *
    split
    · exact .infinity
    · rename_i hfits
      split
      · have hfield : (BitVec.ofNat 11 biased).toNat = biased := by
          rw [BitVec.toNat_ofNat, Nat.mod_eq_of_lt (by omega)]
        refine positive_unpack_packComponents (fun h => hfits ?_) (fun h => ?_)
        · rw [← hfield, h]
          decide
        · rw [h] at hfield
          exact absurd hfield hbiased.ne
      · rename_i hlog
        have hsmall : m < 2 ^ 52 := by
          rw [← Nat.log2_lt hpos.ne']
          have hlog' := (Nat.log2_lt hpos.ne').2 (show m < 2 ^ 53 from hlt)
          omega
        refine positive_unpack_packComponents (by decide) (fun _ h => ?_)
        have hnat := congrArg BitVec.toNat h
        rw [BitVec.toNat_ofNat, Nat.mod_eq_of_lt hsmall] at hnat
        exact hpos.ne' hnat

/-- The number one, as it is unpacked. -/
theorem unpack_powerOfTen_zero :
    (getElem Float.exactlyRepresentablePowersOfTen 0 (by decide)).toModel.unpack =
      .finite .positive (2 ^ 52) (-52) (by decide) := by
  rfl

/-- A power of two adds its exponent to the place of the leading bit. -/
theorem log2_mul_two_pow {n : ℕ} (hn : 0 < n) (k : ℕ) : (n * 2 ^ k).log2 = n.log2 + k := by
  rw [Nat.log2_eq_iff (by positivity), pow_add, Nat.add_right_comm, pow_add]
  exact ⟨Nat.mul_le_mul_right _ (Nat.log2_self_le hn.ne'),
    Nat.mul_lt_mul_of_pos_right Nat.lt_log2_self (by positivity)⟩

/-- A natural number above zero is rounded to one above zero. -/
theorem positive_ofNat {n : ℕ} (hn : 0 < n) : Positive (UnpackedFloat.ofNat .binary64 n) := by
  have hcompare : compare (n : ℤ) 0 = .gt := compare_gt_iff_gt.2 (by exact_mod_cast hn)
  unfold UnpackedFloat.ofNat UnpackedFloat.ofInt UnpackedFloat.normalize
  rw [hcompare]
  unfold UnpackedFloat.round decreaseExponent
  dsimp only
  rw [Nat.shiftLeft_eq, Int.toNat_natCast]
  refine positive_round (by positivity) ?_
  rw [log2_mul_two_pow hn]
  omega

/-- So is a product with a power of two that is not too small. -/
theorem Positive.mul_two_pow {u : UnpackedFloat} (hu : Positive u) {k : ℕ} {e : ℤ}
    (he : -k ≤ e) (hk : 0 < 2 ^ k) :
    Positive (UnpackedFloat.mul .binary64 u (.finite .positive (2 ^ k) e hk)) := by
  rcases hu with _ | @⟨m, e', hpos, hlt, hleast⟩
  · exact .infinity
  · refine positive_round (by positivity) ?_
    rw [log2_mul_two_pow hpos]
    rw [Binary64.leastExponent] at hleast
    omega

/-- **A natural number above zero is a float above zero**, however large it is. -/
theorem positive_toFloat {n : ℕ} (hn : 0 < n) : Positive (Float.ofNat n).toModel.unpack := by
  show Positive (Float.ofScientific n false 0).toModel.unpack
  unfold Float.ofScientific
  split
  · rename_i hsmall
    have hword : n.toUInt64.toNat = n := by
      show n % 2 ^ 64 = n
      exact Nat.mod_eq_of_lt (by omega)
    have hoperand : Positive n.toUInt64.toFloat.toModel.unpack := by
      refine Positive.unpack_pack ?_
      show Positive (UnpackedFloat.ofNat .binary64 n.toUInt64.toNat)
      rw [hword]
      exact positive_ofNat hn
    have hproduct := hoperand.mul_two_pow (k := 52) (e := -52) le_rfl (by decide)
    rw [← unpack_powerOfTen_zero] at hproduct
    exact hproduct.unpack_pack
  · -- The number is as wide as the format before it is multiplied by ten to the zero.
    refine Positive.unpack_pack ?_
    show Positive (UnpackedFloat.ofScientific .binary64 n 0)
    have hsteps : (2 : ℤ) ^ Format.binary64.exponentBits = 2048 := by norm_num
    have hbits : Format.binary64.mantissaBits = 53 := rfl
    unfold UnpackedFloat.ofScientific
    rw [dif_neg hn.ne', hsteps, if_neg (by decide), if_neg (by omega), if_pos le_rfl]
    unfold UnpackedFloat.mul
    simp only [hbits, Nat.shiftLeft_eq, Int.toNat_zero, pow_zero, mul_one, add_zero]
    refine positive_round (by positivity) ?_
    rw [log2_mul_two_pow hn]
    omega

/-! ## Infinite products -/

namespace Binary64

variable {x y : Float}

/-- The infinity above all numbers. -/
def infinity : Float := 1.0 / 0.0

/-- An infinity is packed into the bits it is unpacked from. -/
theorem unpack_pack_infinity (sign : Sign) :
    (Float.Model.pack (.infinity sign)).unpack = .infinity sign := by
  cases sign <;> rfl

/-- A product is rounded and packed. -/
theorem unpack_mul {u : UnpackedFloat}
    (h : UnpackedFloat.mul .binary64 x.toModel.unpack y.toModel.unpack = u) :
    (x * y).toModel.unpack = (Float.Model.pack u).unpack := by
  rw [← h]
  rfl

/-- It is packed from the infinity without a sign. -/
theorem infinity_eq : infinity = .ofModel (.pack (.infinity .positive)) := by
  decide +kernel

/-- **The infinity times a number above zero is the infinity.** -/
theorem infinity_mul (hy : Positive y.toModel.unpack) : infinity * y = infinity := by
  have hproduct : UnpackedFloat.mul .binary64 (.infinity .positive) y.toModel.unpack =
      .infinity .positive := by
    generalize y.toModel.unpack = u at hy
    cases hy <;> rfl
  rw [infinity_eq]
  show Float.ofModel (.pack (UnpackedFloat.mul .binary64
    (Float.Model.pack (.infinity .positive)).unpack y.toModel.unpack)) = _
  rw [unpack_pack_infinity, hproduct]

/-- What is not finite makes a product that is not. -/
theorem mul_of_not_isFinite {u : UnpackedFloat} (h : u.isFinite = false) (v : UnpackedFloat) :
    UnpackedFloat.mul .binary64 u v = .notANumber ∨
      ∃ sign, UnpackedFloat.mul .binary64 u v = .infinity sign := by
  cases u with
  | zero | finite => cases h
  | notANumber => exact .inl rfl
  | infinity sign =>
    cases v with
    | zero | notANumber => exact .inl rfl
    | finite sign' | infinity sign' => exact .inr ⟨sign * sign', rfl⟩

/-- **A product that is finite was so before its last factor.** -/
theorem isFinite_of_mul (h : (x * y).isFinite) : x.isFinite := by
  by_contra hx
  have hproduct : (x * y).toModel.unpack.isFinite = true := h
  rcases mul_of_not_isFinite (Bool.eq_false_iff.2 hx) y.toModel.unpack with hnone | ⟨sign, hsign⟩
  · rw [unpack_mul hnone] at hproduct
    exact absurd hproduct (by decide)
  · rw [unpack_mul hsign, unpack_pack_infinity] at hproduct
    cases hproduct

end Binary64

end Calculator
