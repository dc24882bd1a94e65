import Formula.Number

/-! The values that formulas compute with. Only `null` has a kind to itself; the other
kinds carry a double, a truth value or a text. -/

namespace Formula

inductive Value where
  | number (x : Float)
  | boolean (holds : Bool)
  | text (content : String)
  | null
deriving DecidableEq, Inhabited

namespace Value

/-- Equality as formulas see it: different kinds are unequal, and numbers compare by value,
so that the two zeros are equal and NaN differs from itself. -/
def same : Value → Value → Bool
  | number x, number y => x == y
  | boolean x, boolean y => x == y
  | text x, text y => x == y
  | null, null => true
  | _, _ => false

def boolean? : Value → Option Bool
  | boolean holds => some holds
  | _ => none

def text? : Value → Option String
  | text content => some content
  | _ => none

def isNull : Value → Bool
  | null => true
  | _ => false

/-- Whether a condition with this value holds. Only zero, the empty text, falsehood and
`null` do not; NaN does. -/
def truthy : Value → Bool
  | number x => !(x == 0)
  | boolean holds => holds
  | text content => !content.isEmpty
  | null => false

def kindName : Value → String
  | number _ => "number"
  | boolean _ => "boolean"
  | text _ => "string"
  | null => "null"

/-- A text stands for itself, without quotes. -/
def display : Value → String
  | number x => Number.text x
  | boolean true => "true"
  | boolean false => "false"
  | text content => content
  | null => "null"

def ofInt (n : Int) : Value := number (Float.ofInt n)

/-- An absent value is `null`. -/
def ofOption (make : α → Value) : Option α → Value
  | some x => make x
  | none => null

end Value

end Formula
