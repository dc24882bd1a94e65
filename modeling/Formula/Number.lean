import Formula.Decimal.Significant
import Formula.Numeral

/-! The numbers of the language are doubles. Their text has the shortest digits that read
back, never with a power of ten; NaN has no sign, zero and infinity keep theirs. -/

namespace Formula.Number

open Float.Model (UnpackedFloat)
open Float.Model.UnpackedFloat (Sign)

def nan : Float := .ofModel (.pack .notANumber)

def infinity (sign : Sign) : Float := .ofModel (.pack (.infinity sign))

def signText : Sign → List Char
  | .negative => ['-']
  | .positive => []

def chars (x : Float) : List Char :=
  match x.toModel.unpack with
  | .notANumber => ['N', 'a', 'N']
  | .infinity sign => signText sign ++ ['i', 'n', 'f']
  | .zero sign => signText sign ++ ['0']
  | .finite .positive _ _ _ => (Decimal.shortest x).text
  | .finite .negative _ _ _ => '-' :: (Decimal.shortest (-x)).text

def text (x : Float) : String := .ofList (chars x)

/-- Scientific notation with `count` significant digits. -/
def significantText (count : Nat) (x : Float) : String :=
  match x.toModel.unpack with
  | .zero sign => .ofList (signText sign ++ Decimal.significantZero count)
  | .finite sign mantissa exponent _ =>
    let (numerator, denominator) := dyadic mantissa exponent
    .ofList (signText sign ++ Decimal.significant count numerator denominator)
  | _ => text x

/-- Reads a number: a numeral with an optional sign, or the name of an infinity or of NaN. -/
def ofText? (text : String) : Option Float :=
  match text.toList with
  | ['N', 'a', 'N'] => some nan
  | '-' :: rest => (magnitude? rest).map (- ·)
  | '+' :: rest => magnitude? rest
  | rest => magnitude? rest
where
  magnitude? : List Char → Option Float
    | ['i', 'n', 'f'] => some (infinity .positive)
    | rest =>
      match Numeral.ofText? rest with
      | some numeral => if numeral.chars = rest then some numeral.toFloat else none
      | none => none

end Formula.Number
