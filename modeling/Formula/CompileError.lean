import Formula.Reader
import Formula.Text.Position

/-! Why a text is no formula, and where. What was expected is told as a list of the kinds of
words that could have gone on. -/

namespace Formula

/-- The kinds of words, the kinds of operators counted one by one. -/
def Expected.words : Expected → List String
  | operand => ["operand"]
  | unsignedOperand => ["bracket", "identifier", "number", "string"]
  | operator ending comparing =>
    (if ending then ["end of input"] else []) ++ (if comparing then ["comparison operator"] else []) ++
      ["operator", "operator", "operator"]

/-- Alternatives in a sentence. -/
def alternatives : List String → String
  | [] => ""
  | [word] => word
  | [first, second] => first ++ " or " ++ second
  | words => ", ".intercalate words.dropLast ++ ", or " ++ words.getLastD ""

inductive Fault where
  /-- A bracket opens a level beyond the limit. -/
  | tooDeep (limit : Nat)
  | unexpected (instead : Expected)
  /-- A numeral whose nearest double is infinite. -/
  | outOfRange (numeral : String)
deriving DecidableEq, Repr

def Fault.message : Fault → String
  | tooDeep limit => s!"expression is nested deeper than {limit} levels"
  | unexpected instead => "expected " ++ alternatives instead.words
  | outOfRange numeral => s!"number '{numeral}' is out of range"

structure CompileError where
  fault : Fault
  position : Position
deriving DecidableEq, Repr

def CompileError.message (error : CompileError) : String :=
  let line := error.position.line
  let column := error.position.column
  error.fault.message ++ s!" at {line}:{column}"

end Formula
