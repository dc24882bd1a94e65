import Formula.Value

/-! Why a formula has no value. Each cause keeps what its message tells. -/

namespace Formula

inductive EvalError where
  /-- A name stands for no value. -/
  | unresolved (name : String)
  /-- A value is of another kind than its place demands. -/
  | mismatch (value : Value)
  | unsupported (operator : String)
  /-- A function got too few or too many arguments; `expected` is the bound it missed. -/
  | arity (name : String) (expected : Nat)
  | undefined (name : String)
  /-- A failure that a function reports in its own words. -/
  | failed (text : String)
deriving DecidableEq

def EvalError.message : EvalError → String
  | unresolved name => s!"value of '{name}' was not found"
  | mismatch value => value.display ++ " (" ++ value.kindName ++ ") has not a valid type"
  | unsupported operator => s!"the operator '{operator}' is not supported"
  | arity name expected => s!"'{name}' expects {expected} parameters"
  | undefined name => s!"the function '{name}' is not defined"
  | failed text => text

/-- The number that a place demands. -/
def Value.toNumber : Value → Except EvalError Float
  | number x => .ok x
  | other => .error (.mismatch other)

end Formula
