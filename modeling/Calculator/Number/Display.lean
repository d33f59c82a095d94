import Calculator.Number.Shortest
/-!
# The text of a number

A number is written with its shortest digits and never with an exponent:
zeros fill up to the decimal point, and a whole number has no point at
all. The sign of zero is kept. The three values that are no numbers have
texts of their own.
-/

namespace Calculator

namespace Number

/-- `n` zeros. -/
def zeros (n : Nat) : String := .ofList (List.replicate n '0')

/-- A decimal in positional notation. -/
def Decimal.positional (decimal : Decimal) : String :=
  let digits := Nat.repr decimal.digits
  let places := (-decimal.exponent).toNat
  if places == 0 then digits ++ zeros decimal.exponent.toNat
  else if places < digits.length then
    let whole := digits.length - places
    .ofList (digits.toList.take whole) ++ "." ++ .ofList (digits.toList.drop whole)
  else "0." ++ zeros (places - digits.length) ++ digits

/-- The text of what a float stands for. -/
def textOf : Binary64 → String
  | .notANumber => "NaN"
  | .infinite negative => (if negative then "-" else "") ++ "inf"
  | .finite negative significand exponent =>
    (if negative then "-" else "") ++
      if significand == 0 then "0" else (shortest significand exponent).positional

/-- **The text of a float.** -/
def text (x : Float) : String := textOf (.ofFloat x)

end Number

end Calculator
