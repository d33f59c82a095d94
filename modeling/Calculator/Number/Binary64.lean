/-!
# What a float stands for

`Binary64.ofFloat` reads a float's bits as a value: not a number, an
infinity, or a sign and an integer times a power of two. `integer?` is the
integer a finite value equals, if it equals one, so it also answers
whether a value has a fractional part.
-/

namespace Calculator

/-- A value of the format of 64 bits. A finite one is its `significand`
times two to its `exponent`, and zero keeps its sign. -/
inductive Binary64 where
  | notANumber
  | infinite (negative : Bool)
  | finite (negative : Bool) (significand : Nat) (exponent : Int)
deriving DecidableEq, Repr

namespace Binary64

/-- The weight of the leading bit of a significand, which the bits of a
normal value leave out: two to the fifty-second. -/
def leadingBit : Nat := 0x10000000000000

/-- The weight of the sign among the bits. -/
def signBit : Nat := 0x8000000000000000

/-- The exponent of the values below the least normal one. -/
def leastExponent : Int := -1074

/-- **The value of a float**, read off its sign, its field of eleven
exponent bits and its field of fraction bits. -/
def ofFloat (x : Float) : Binary64 :=
  let bits := x.toBits.toNat
  let negative := bits / signBit % 2 == 1
  let field := bits / leadingBit % 0x800
  let fraction := bits % leadingBit
  if field == 0x7FF then
    if fraction == 0 then infinite negative else notANumber
  else if field == 0 then finite negative fraction leastExponent
  else finite negative (leadingBit + fraction) (leastExponent + field - 1)

/-- **The integer a finite value equals**, if it has no fractional part. -/
def integer? : Binary64 → Option Int
  | finite negative significand exponent =>
    let denominator := Nat.pow 2 (-exponent).toNat
    if significand % denominator == 0 then
      let magnitude : Int := ((significand / denominator) * Nat.pow 2 exponent.toNat : Nat)
      some (if negative then -magnitude else magnitude)
    else none
  | _ => none

end Binary64

end Calculator
