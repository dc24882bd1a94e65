import Formula.Operator

/-! The words of a formula. A number keeps the text that it was read from. -/

namespace Formula

inductive Token where
  | number (text : String) (x : Float)
  | text (content : String)
  | name (letters : String)
  | operator (operator : Operator)
  | relation (relation : Relation)
  | opening
  | closing
  | comma
deriving DecidableEq

/-- A token and the offset of its first character. -/
structure Placed where
  offset : Nat
  token : Token
deriving DecidableEq

end Formula
