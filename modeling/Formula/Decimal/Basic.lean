/-! Decimal notation of doubles. `scaled` reads digits with a power of ten, correctly
rounded; a `Decimal` is a number written without a power of ten, and its text is its
digits with a point among them. -/

namespace Formula

/-- The double nearest to `digits * 10 ^ exponent`, of two equally near ones the even
one. Beyond the largest double it is infinite. -/
def scaled (digits : Nat) : Int → Float
  | .ofNat exponent => Float.ofScientific digits false exponent
  | .negSucc exponent => Float.ofScientific digits true (exponent + 1)

/-- The nonnegative number `coefficient / 10 ^ places`. -/
structure Decimal where
  coefficient : Nat
  places : Nat
deriving DecidableEq, Repr

namespace Decimal

/-- The number `coefficient * 10 ^ exponent`. -/
def ofScaled (coefficient : Nat) : Int → Decimal
  | .ofNat exponent => ⟨coefficient * Nat.pow 10 exponent, 0⟩
  | .negSucc exponent => ⟨coefficient, exponent + 1⟩

def toFloat (decimal : Decimal) : Float := scaled decimal.coefficient (-decimal.places)

/-- All digits, with at least one before the point. -/
def digits (decimal : Decimal) : List Char :=
  let significant := Nat.toDigits 10 decimal.coefficient
  List.replicate (decimal.places + 1 - significant.length) '0' ++ significant

def whole (decimal : Decimal) : List Char :=
  decimal.digits.take (decimal.digits.length - decimal.places)

def fraction (decimal : Decimal) : List Char :=
  decimal.digits.drop (decimal.digits.length - decimal.places)

/-- Every place is written, and the point only where places follow it. -/
def text (decimal : Decimal) : List Char :=
  if decimal.places = 0 then decimal.whole else decimal.whole ++ '.' :: decimal.fraction

end Decimal

end Formula
