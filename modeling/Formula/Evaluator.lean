import Formula.Compile
import Formula.Eval
import Formula.Function.Registry
import Formula.Variables

/-! Formulas compiled and evaluated with a host's functions. -/

namespace Formula

/-- Why a text has no value. -/
inductive Error where
  | compile (error : CompileError)
  | eval (error : EvalError)
deriving DecidableEq

def Error.message : Error → String
  | compile error => "compile error: " ++ error.message
  | eval error => "evaluation error: " ++ error.message

/-- The value of a text in one go. -/
def evaluateIn (scope : Scope) (limit : Nat) (text : String) : Except Error Value :=
  match compile limit text with
  | .error error => .error (.compile error)
  | .ok expr =>
    match expr.eval scope with
    | .error error => .error (.eval error)
    | .ok value => .ok value

/-- The value of a text with the functions of doubles alone. -/
def evaluateText (value? : String → Option Value) (text : String) : Except Error Value :=
  evaluateIn ⟨value?, mathTable.find?⟩ defaultLimit text

/-- A host's functions, and how deep its formulas may nest. -/
structure Evaluator where
  registry : Registry
  limit : Nat := defaultLimit

namespace Evaluator

def standard : Evaluator := ⟨.standard, defaultLimit⟩

def scope (evaluator : Evaluator) (value? : String → Option Value) : Scope :=
  ⟨value?, evaluator.registry.find?⟩

def compile (evaluator : Evaluator) (text : String) : Except CompileError Expr :=
  Formula.compile evaluator.limit text

def evaluate (evaluator : Evaluator) (expr : Expr) (value? : String → Option Value) :
    Except EvalError Value :=
  expr.eval (evaluator.scope value?)

def evaluateText (evaluator : Evaluator) (text : String) (value? : String → Option Value) :
    Except Error Value :=
  evaluateIn (evaluator.scope value?) evaluator.limit text

/-- One formula against each set of values; a failure is that of its own set only. -/
def evaluateBatch (evaluator : Evaluator) (expr : Expr) (sets : List (String → Option Value)) :
    List (Except EvalError Value) :=
  sets.map (evaluator.evaluate expr)

def register (evaluator : Evaluator) (name : String) (function : Function) : Evaluator :=
  { evaluator with registry := evaluator.registry.insert name function }

end Evaluator

end Formula
