import Formula.Decimal.Basic

/-! Numerals as they stand in a text: digits with at most one point among or before them,
then an optional power of ten. A numeral ends where no letter, underscore or point goes on. -/

namespace Formula

/-- A numeral by its parts as they are written: the digits before the point, the point with
the digits after it, and the mark of a power of ten with its sign and digits. Of the last
two either may be missing. -/
structure Numeral where
  whole : List Char
  fraction : List Char
  power : List Char
deriving DecidableEq, Repr

namespace Numeral

def chars (numeral : Numeral) : List Char := numeral.whole ++ numeral.fraction ++ numeral.power

def places (numeral : Numeral) : List Char := numeral.fraction.drop 1

def exponent (numeral : Numeral) : Int :=
  match numeral.power.drop 1 with
  | '-' :: digits => Int.negOfNat (Nat.ofDigitChars 10 digits 0)
  | '+' :: digits => Nat.ofDigitChars 10 digits 0
  | digits => Nat.ofDigitChars 10 digits 0

/-- The nearest double. -/
def toFloat (numeral : Numeral) : Float :=
  scaled (Nat.ofDigitChars 10 (numeral.whole ++ numeral.places) 0) (numeral.exponent - numeral.places.length)

def digitsOf (text : List Char) : List Char := text.takeWhile Char.isDigit

/-- The fraction that a text begins with. -/
def fractionOf : List Char → List Char
  | '.' :: rest => '.' :: digitsOf rest
  | _ => []

def signOf : List Char → List Char
  | '+' :: _ => ['+']
  | '-' :: _ => ['-']
  | _ => []

/-- The power of ten that a text begins with; a mark without digits is none. -/
def powerOf : List Char → List Char
  | [] => []
  | mark :: rest =>
    let sign := signOf rest
    let digits := digitsOf (rest.drop sign.length)
    if (mark = 'e' ∨ mark = 'E') ∧ digits ≠ [] then mark :: sign ++ digits else []

/-- Characters that may not follow a numeral. -/
def continues (c : Char) : Bool := c.isAlpha || c == '_' || c == '.'

/-- The numeral that a text begins with. -/
def ofText? (text : List Char) : Option Numeral :=
  let whole := digitsOf text
  let afterWhole := text.drop whole.length
  let fraction := fractionOf afterWhole
  let afterFraction := afterWhole.drop fraction.length
  let power := powerOf afterFraction
  if whole = [] ∧ fraction.length ≤ 1 then none
  else if (afterFraction.drop power.length).head?.any continues then none
  else some ⟨whole, fraction, power⟩

end Numeral

end Formula
