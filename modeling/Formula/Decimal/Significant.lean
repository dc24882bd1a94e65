import Formula.Decimal.Shortest

/-! Scientific notation with a fixed number of significant digits, rounded from the exact
value of a double, of two equally near numerals to the one with the even last digit. -/

namespace Formula.Decimal

/-- The quotient rounded to the nearest integer, a half to the even one. -/
def divideToEven (numerator denominator : Nat) : Nat :=
  let quotient := numerator / denominator
  match compare (2 * (numerator % denominator)) denominator with
  | .lt => quotient
  | .eq => quotient + quotient % 2
  | .gt => quotient + 1

/-- One digit, then a point and the others if there are any, then the power of ten. -/
def mantissaText : List Char → List Char
  | [] => []
  | [digit] => [digit]
  | digit :: digits => digit :: '.' :: digits

def exponentText (exponent : Int) : List Char := 'e' :: (toString exponent).toList

/-- The positive fraction with `count` significant digits. -/
def significant (count numerator denominator : Nat) : List Char :=
  let place := leading numerator denominator
  let exponent := place - count
  let rounded := divideToEven (numerator * Nat.pow 10 (-exponent).toNat)
    (denominator * Nat.pow 10 exponent.toNat)
  -- rounding up may carry into a new leading digit
  if rounded = Nat.pow 10 count then
    mantissaText (Nat.toDigits 10 (Nat.pow 10 (count - 1))) ++ exponentText place
  else mantissaText (Nat.toDigits 10 rounded) ++ exponentText (place - 1)

/-- Zero with `count` significant digits. -/
def significantZero (count : Nat) : List Char :=
  mantissaText (List.replicate count '0') ++ exponentText 0

end Formula.Decimal
