import Mathlib
import Calculator.Number.Binary64
import Calculator.Number.Literal
/-!
# The values of literals

A literal has no sign, and neither has its value: rounding a number from zero
up gives such a number, or the infinity above all of them, and nothing that is
no number (`Literal.isUnsigned_value`). A float is made by packing what an
operation gives, so the operations that make the value of a literal are followed
one by one (`Unsigned`), and then the bits they are packed into
(`Unsigned.isUnsigned_ofFloat`).
-/

namespace Calculator

open Float.Model Float.Model.UnpackedFloat

/-- **The value has no sign**: it is a number from zero up, or the infinity
above them, and a zero is not a negative one. -/
def Binary64.IsUnsigned : Binary64 → Prop
  | notANumber => False
  | infinite negative => negative = false
  | finite negative _ _ => negative = false

/-- What an operation gives before it is packed has no sign. -/
inductive Unsigned : UnpackedFloat → Prop
  | infinity : Unsigned (.infinity .positive)
  | zero : Unsigned (.zero .positive)
  | finite {significand : Nat} {exponent : Int} {h : 0 < significand} :
      Unsigned (.finite .positive significand exponent h)

/-- It is a number above zero. -/
def isAboveZero : UnpackedFloat → Bool
  | .finite .positive _ _ _ => true
  | _ => false

variable {format : Float.Model.Format} {x y : UnpackedFloat}

/-! ## Operations -/

/-- **Rounding gives no sign.** -/
theorem unsigned_round (significand : Nat) (exponent : Int) (accuracy : Accuracy) :
    Unsigned (roundWithAccuracy format .positive significand exponent accuracy) := by
  unfold roundWithAccuracy
  dsimp only
  split
  · exact .zero
  · exact .finite

/-- Nor does the product with a number above zero. -/
theorem Unsigned.mul (h : Unsigned x) (hy : isAboveZero y) :
    Unsigned (UnpackedFloat.mul format x y) := by
  unfold isAboveZero at hy
  split at hy
  · rcases h with _ | _ | _
    · exact .infinity
    · exact .zero
    · exact unsigned_round _ _ _
  · contradiction

/-- Nor the quotient by one. -/
theorem Unsigned.div (h : Unsigned x) (hy : isAboveZero y) :
    Unsigned (UnpackedFloat.div format x y) := by
  unfold isAboveZero at hy
  split at hy
  · rcases h with _ | _ | _
    · exact .infinity
    · exact .zero
    · exact unsigned_round _ _ _
  · contradiction

theorem unsigned_ofNat (n : Nat) : Unsigned (UnpackedFloat.ofNat format n) := by
  have hnonneg : compare (n : Int) 0 ≠ .lt := by
    intro hlt
    have := compare_lt_iff_lt.1 hlt
    omega
  unfold UnpackedFloat.ofNat UnpackedFloat.ofInt UnpackedFloat.normalize
  split
  · contradiction
  · exact .zero
  · unfold UnpackedFloat.round
    exact unsigned_round _ _ _

/-- **A natural number times a power of ten** has none either, however it is rounded. -/
theorem unsigned_ofScientific (n : Nat) (exponent : Int) :
    Unsigned (UnpackedFloat.ofScientific format n exponent) := by
  unfold UnpackedFloat.ofScientific
  split
  · exact .zero
  · split
    · exact .infinity
    · split
      · exact .zero
      · split
        · exact Unsigned.finite.mul rfl
        · exact Unsigned.finite.div rfl

/-! ## Bits -/

/-- **What is packed** has no sign bit, and the exponent of all ones is that of the
infinity alone. -/
theorem Unsigned.exists_pack (h : Unsigned x) (format : Float.Model.Format) : ∃ field fraction,
    UnpackedFloat.pack format x = packComponents format .positive field fraction ∧
      (field = -1#_ → fraction = 0#_) := by
  rcases h with _ | _ | @⟨significand, exponent, hpos⟩
  · exact ⟨_, _, rfl, fun _ => rfl⟩
  · exact ⟨_, _, rfl, fun _ => rfl⟩
  · unfold UnpackedFloat.pack
    dsimp only
    split
    · exact ⟨_, _, rfl, fun _ => rfl⟩
    · rename_i hfits
      -- The exponent fits below the one of all ones, normal or not.
      split
      · refine ⟨_, _, rfl, fun hones => ?_⟩
        have hnat := congrArg BitVec.toNat hones
        simp only [BitVec.neg_one_eq_allOnes, BitVec.toNat_allOnes, BitVec.toNat_ofNat] at hnat
        rw [Nat.mod_eq_of_lt (by omega)] at hnat
        omega
      · refine ⟨_, _, rfl, fun hones => ?_⟩
        have hnat := congrArg BitVec.toNat hones
        simp only [BitVec.neg_one_eq_allOnes, BitVec.toNat_allOnes, BitVec.toNat_zero] at hnat
        have := Nat.one_lt_two_pow format.he.ne'
        omega

/-- The sign bit that was packed is unpacked. -/
theorem unpackSign_packComponents (field : BitVec format.exponentBits)
    (fraction : BitVec format.mantissaBitsWithoutImplicit) :
    unpackSign (packComponents format .positive field fraction) = 0#1 := by
  refine BitVec.eq_of_getLsbD_eq fun i hi => ?_
  obtain rfl : i = 0 := by omega
  simp [unpackSign, packComponents, BitVec.getLsbD_append, BitVec.getElem_append, Sign.toBitVec]

/-- **Packing loses no sign**, so the operands of an operation have none. -/
theorem Unsigned.unpack_pack (h : Unsigned x) :
    Unsigned (UnpackedFloat.unpack format (UnpackedFloat.pack format x)) := by
  obtain ⟨field, fraction, hpack, hones⟩ := h.exists_pack format
  have hsign : Sign.ofBitVec 0#1 = .positive := rfl
  rw [hpack]
  unfold UnpackedFloat.unpack
  simp only [unpackMantissa_packComponents, unpackExponent_packComponents,
    unpackSign_packComponents, hsign]
  split
  · rename_i hfield
    rw [if_pos (hones hfield)]
    exact .infinity
  · split
    · split
      · exact .zero
      · exact .finite
    · exact .finite

/-- The bits of a float without a sign, as one number. -/
theorem toNat_packComponents (field : BitVec 11) (fraction : BitVec 52) :
    (packComponents .binary64 .positive field fraction).toNat =
      field.toNat * Binary64.leadingBit + fraction.toNat := by
  unfold packComponents
  rw [BitVec.toNat_append, BitVec.toNat_append, ← Nat.shiftLeft_add_eq_or_of_lt fraction.isLt]
  simp [Sign.toBitVec, Nat.shiftLeft_eq, Binary64.leadingBit]

/-- **The float that it is packed into has no sign.** -/
theorem Unsigned.isUnsigned_ofFloat (h : Unsigned x) :
    (Binary64.ofFloat (.ofModel (.pack x))).IsUnsigned := by
  obtain ⟨field, fraction, hpack, hones⟩ := h.exists_pack .binary64
  have hbits : (Float.ofModel (.pack x)).toBits.toNat =
      field.toNat * Binary64.leadingBit + fraction.toNat := by
    show (UnpackedFloat.pack .binary64 x).toNat = _
    rw [hpack, toNat_packComponents]
  have hfraction : fraction.toNat < 2 ^ 52 := fraction.isLt
  have hfield : field.toNat < 2 ^ 11 := field.isLt
  unfold Binary64.ofFloat
  dsimp only
  rw [hbits]
  generalize hword : field.toNat * Binary64.leadingBit + fraction.toNat = word
  unfold Binary64.leadingBit at hword
  -- The three fields of the word are the parts that were packed.
  have hsign : word / Binary64.signBit % 2 = 0 := by
    unfold Binary64.signBit
    omega
  have hexponent : word / Binary64.leadingBit % 0x800 = field.toNat := by
    unfold Binary64.leadingBit
    omega
  have hrest : word % Binary64.leadingBit = fraction.toNat := by
    unfold Binary64.leadingBit
    omega
  rw [hsign, hexponent, hrest]
  split
  · rename_i hfull
    have hones' : field = -1#_ := BitVec.eq_of_toNat_eq (by simpa using hfull)
    rw [hones hones']
    rfl
  · split <;> rfl

/-! ## Literals -/

/-- The powers of ten that are floats themselves are above zero. -/
theorem isAboveZero_powersOfTen : ∀ exponent : Fin Float.exactlyRepresentablePowersOfTen.size,
    isAboveZero Float.exactlyRepresentablePowersOfTen[exponent].toModel.unpack := by
  decide +kernel

/-- **The value of a literal has no sign**, and it is a number or the infinity. -/
theorem Literal.isUnsigned_value (literal : Literal) :
    (Binary64.ofFloat literal.value).IsUnsigned := by
  unfold Literal.value
  dsimp only
  generalize natOfDigits _ = n
  generalize literal.power - _ = shift
  have hoperand : Unsigned n.toUInt64.toFloat.toModel.unpack := (unsigned_ofNat _).unpack_pack
  unfold Float.ofScientific
  -- A small power of ten is one operation away, a large one is rounded at once.
  split
  · have hsize : shift.natAbs < Float.exactlyRepresentablePowersOfTen.size := by
      simp only [Float.exactlyRepresentablePowersOfTen, List.size_toArray, List.length_cons,
        List.length_nil]
      omega
    have hpower := isAboveZero_powersOfTen ⟨shift.natAbs, hsize⟩
    dsimp only
    split
    · exact (hoperand.div hpower).isUnsigned_ofFloat
    · exact (hoperand.mul hpower).isUnsigned_ofFloat
  · exact (unsigned_ofScientific _ _).isUnsigned_ofFloat

end Calculator
