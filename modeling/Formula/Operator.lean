import Formula.EvalError
import Formula.Remainder

/-! The operators. Arithmetic is that of doubles and never fails; of the comparisons only
equality and its negation take values of every kind. -/

namespace Formula

inductive Operator where
  | add
  | subtract
  | multiply
  | divide
  | modulo
  | power
deriving DecidableEq, Repr

namespace Operator

def symbol : Operator → Char
  | add => '+'
  | subtract => '-'
  | multiply => '*'
  | divide => '/'
  | modulo => '%'
  | power => '^'

def ofChar? : Char → Option Operator
  | '+' => some add
  | '-' => some subtract
  | '*' => some multiply
  | '/' => some divide
  | '%' => some modulo
  | '^' => some power
  | _ => none

def ofText (text : String) : Except EvalError Operator :=
  match text.toList with
  | [c] =>
    match ofChar? c with
    | some operator => .ok operator
    | none => .error (.unsupported text)
  | _ => .error (.unsupported text)

/-- A higher precedence binds tighter. -/
def precedence : Operator → Nat
  | add | subtract => 1
  | multiply | divide | modulo => 2
  | power => 3

/-- Whether the operator can stand before an operand as its sign. -/
def isSign (operator : Operator) : Bool := operator.precedence == 1

def apply : Operator → Float → Float → Float
  | add, x, y => x + y
  | subtract, x, y => x - y
  | multiply, x, y => x * y
  | divide, x, y => x / y
  | modulo, x, y => remainder x y
  | power, x, y => x.pow y

end Operator

inductive Relation where
  | less
  | greater
  | atMost
  | atLeast
  | equal
  | unequal
deriving DecidableEq, Repr

namespace Relation

def symbol : Relation → List Char
  | less => ['<']
  | greater => ['>']
  | atMost => ['<', '=']
  | atLeast => ['>', '=']
  | equal => ['=', '=']
  | unequal => ['!', '=']

def ofText (text : String) : Except EvalError Relation :=
  match text.toList with
  | ['<'] => .ok less
  | ['>'] => .ok greater
  | ['<', '='] => .ok atMost
  | ['>', '='] => .ok atLeast
  | ['=', '='] => .ok equal
  | ['!', '='] => .ok unequal
  | _ => .error (.unsupported text)

private def numeric (holds : Float → Float → Bool) (x y : Value) : Except EvalError Bool := do
  let left ← x.toNumber
  let right ← y.toNumber
  return holds left right

/-- The order is that of numbers, the left side checked first. -/
def apply : Relation → Value → Value → Except EvalError Bool
  | less, x, y => numeric (fun left right => left < right) x y
  | greater, x, y => numeric (fun left right => right < left) x y
  | atMost, x, y => numeric (fun left right => left ≤ right) x y
  | atLeast, x, y => numeric (fun left right => right ≤ left) x y
  | equal, x, y => .ok (x.same y)
  | unequal, x, y => .ok (!x.same y)

end Relation

end Formula
