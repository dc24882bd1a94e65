import Formula.Function.Basic

/-! The value of a formula among given variables and functions. Parts are evaluated from
left to right, and the first failure is the failure of the whole. A function of the host may
evaluate formulas of its own, whose functions may do so again, and so on. -/

namespace Formula

/-- A way to call functions: what comes of a function in a scope for its arguments. -/
abbrev Calls := Function → Scope → List Argument → Except EvalError Value

namespace Expr

mutual
def evalBy (calls : Calls) (scope : Scope) : Expr → Except EvalError Value
  | .literal value => .ok value
  | .field name =>
    match scope.value? name with
    | some value => .ok value
    | none => .error (.unresolved name)
  | .chain head terms => do
    let value ← head.evalBy calls scope
    let x ← value.toNumber
    let result ← evalTermsBy calls scope x terms
    return .number result
  | .comparison left relation right => do
    let x ← left.evalBy calls scope
    let y ← right.evalBy calls scope
    let holds ← relation.apply x y
    return .boolean holds
  | .group inner => inner.evalBy calls scope
  | .call name arguments =>
    match scope.function? name with
    | some function => calls function scope (evalArgumentsBy calls scope arguments)
    | none => .error (.undefined name)
termination_by structural expr => expr

/-- Applies each operator in turn to the result so far. -/
def evalTermsBy (calls : Calls) (scope : Scope) : Float → List (Operator × Expr) → Except EvalError Float
  | x, [] => .ok x
  | x, (operator, operand) :: terms => do
    let value ← operand.evalBy calls scope
    let y ← value.toNumber
    evalTermsBy calls scope (operator.apply x y) terms
termination_by structural _ terms => terms

def evalArgumentsBy (calls : Calls) (scope : Scope) : List Expr → List Argument
  | [] => []
  | argument :: arguments => ⟨argument, fun _ => argument.evalBy calls scope⟩ :: evalArgumentsBy calls scope arguments
termination_by structural arguments => arguments
end

end Expr

/-- What comes of a program among its scopes. -/
def Program.perform (calls : Calls) {count : Nat} (scopes : Fin count → Scope) : Program count → Except EvalError Value
  | .done outcome => outcome
  | .read scope next => (next (scopes scope).value?).perform calls scopes
  | .solve scope expr next => (next (expr.evalBy calls (scopes scope))).perform calls scopes
  | .call table name scope arguments next =>
    let outcome := match (scopes table).function? name with
      | some function => calls function (scopes scope) (Expr.evalArgumentsBy calls (scopes scope) arguments)
      | none => .error (.undefined name)
    (next outcome).perform calls scopes
  | .extend value? function next =>
    next.perform calls (Fin.cases ⟨value?, fun name => some (.free scopes (function name))⟩ scopes)
termination_by structural program => program

namespace Function

/-- A call whose program makes calls of its own in the given way. -/
def callBy (calls : Calls) : Calls
  | declared function, _, arguments => function.call arguments
  | conditional, _, arguments => choose arguments
  | free held program, scope, arguments => (program arguments).perform calls (Fin.cases scope held)

/-- Calls whose programs run inside each other, down to a depth at which other calls take over. -/
def callAbove (deeper : Calls) : Nat → Calls
  | 0 => deeper
  | depth + 1 => callBy (callAbove deeper depth)

/-- More calls inside each other than any stack has room for. -/
def maxDepth : Nat := UInt64.size

def overflow : Calls := fun _ _ _ => .error (.failed "stack overflow")

def call : Calls := callBy (callAbove overflow maxDepth)

end Function

namespace Expr

def eval (scope : Scope) (expr : Expr) : Except EvalError Value := expr.evalBy Function.call scope

def evalTerms (scope : Scope) (x : Float) (terms : List (Operator × Expr)) : Except EvalError Float :=
  evalTermsBy Function.call scope x terms

def evalArguments (scope : Scope) (arguments : List Expr) : List Argument :=
  evalArgumentsBy Function.call scope arguments

end Expr

end Formula
