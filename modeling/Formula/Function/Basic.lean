import Formula.Expr.Basic

/-! Functions and how they are called. Arguments arrive unevaluated. A declared function
names its parameters, the optional ones last; it is refused the wrong number of arguments
before any is evaluated, and then each argument is evaluated and coerced before the next.
A free function is a program: it may read the variables of the scope it is called in, solve
formulas there, call the functions of the scope, itself among them, and make scopes. -/

namespace Formula

/-- What a parameter takes: values of one kind, or any value. -/
inductive Kind where
  | number
  | boolean
  | text
  | any
deriving DecidableEq, Repr

namespace Kind

/-- What a body gets for a parameter. -/
abbrev Carrier : Kind → Type
  | number => Float
  | boolean => Bool
  | text => String
  | any => Value

def coerce : (kind : Kind) → Value → Except EvalError kind.Carrier
  | number, .number x => .ok x
  | boolean, .boolean holds => .ok holds
  | text, .text content => .ok content
  | any, value => .ok value
  | _, value => .error (.mismatch value)

end Kind

/-- An argument as a function receives it: its tree, and its value for the asking. -/
structure Argument where
  source : Expr
  value : Unit → Except EvalError Value

/-- Values for required parameters. -/
abbrev Values : List Kind → Type
  | [] => Unit
  | kind :: kinds => kind.Carrier × Values kinds

/-- Values for optional parameters, `none` for those without an argument. -/
abbrev OptionalValues : List Kind → Type
  | [] => Unit
  | kind :: kinds => Option kind.Carrier × OptionalValues kinds

/-- A body with optional parameters only. -/
abbrev OptionalBody : List Kind → Type
  | [] => Except EvalError Value
  | kind :: kinds => Option kind.Carrier → OptionalBody kinds

/-- A body takes the required parameters and then the optional ones. -/
abbrev Body : List Kind → List Kind → Type
  | [], optional => OptionalBody optional
  | kind :: kinds, optional => kind.Carrier → Body kinds optional

def OptionalBody.apply : {optional : List Kind} → OptionalBody optional → OptionalValues optional →
    Except EvalError Value
  | [], body, _ => body
  | _ :: _, body, (value, values) => apply (body value) values

def Body.apply : {required optional : List Kind} → Body required optional → Values required →
    OptionalValues optional → Except EvalError Value
  | [], _, body, _, others => OptionalBody.apply body others
  | _ :: _, _, body, (value, values), others => apply (body value) values others

structure Declared where
  /-- The name in messages, whatever name the function is called by. -/
  name : String
  required : List Kind
  optional : List Kind
  body : Body required optional

namespace Declared

/-- Evaluates and coerces one argument after the other; parameters without one stay empty. -/
def collectOptional : (kinds : List Kind) → List Argument → Except EvalError (OptionalValues kinds)
  | [], _ => .ok ()
  | _ :: kinds, [] => do return (none, ← collectOptional kinds [])
  | kind :: kinds, argument :: arguments => do
    let value ← argument.value ()
    let value ← kind.coerce value
    return (some value, ← collectOptional kinds arguments)

/-- Evaluates and coerces arguments for all parameters, the optional ones last. -/
def collect (function : Declared) : (kinds : List Kind) → List Argument →
    Except EvalError (Values kinds × OptionalValues function.optional)
  | [], arguments => do return ((), ← collectOptional function.optional arguments)
  | _ :: _, [] => .error (.arity function.name function.required.length)
  | kind :: kinds, argument :: arguments => do
    let value ← argument.value ()
    let value ← kind.coerce value
    let (values, others) ← function.collect kinds arguments
    return ((value, values), others)

def call (function : Declared) (arguments : List Argument) : Except EvalError Value :=
  if arguments.length < function.required.length then
    .error (.arity function.name function.required.length)
  else if function.required.length + function.optional.length < arguments.length then
    .error (.arity function.name (function.required.length + function.optional.length))
  else do
    let (values, others) ← function.collect function.required arguments
    function.body.apply values others

end Declared

mutual
/-- What names stand for. -/
structure Scope where
  value? : String → Option Value
  function? : String → Option Function

inductive Function where
  | declared (function : Declared)
  /-- Takes a condition and two branches and evaluates only the branch that it selects. -/
  | conditional
  /-- Takes any arguments and goes through a program with the scopes that it holds on to. The
  scope it is called in comes first. -/
  | free {count : Nat} (held : Fin count → Scope) (program : List Argument → Program (count + 1))

/-- What a function of the host does with the scopes it knows, step by step. -/
inductive Program : Nat → Type where
  | done {count : Nat} (outcome : Except EvalError Value) : Program count
  | read {count : Nat} (scope : Fin count) (next : (String → Option Value) → Program count) : Program count
  | solve {count : Nat} (scope : Fin count) (expr : Expr) (next : Except EvalError Value → Program count) : Program count
  /-- Calls a function of one scope in another. -/
  | call {count : Nat} (table : Fin count) (name : String) (scope : Fin count) (arguments : List Expr)
      (next : Except EvalError Value → Program count) : Program count
  /-- Puts a new scope first. What it does with calls may use the scopes known so far. -/
  | extend {count : Nat} (value? : String → Option Value) (function : String → List Argument → Program (count + 1))
      (next : Program (count + 1)) : Program count
end

namespace Function

/-- A function that holds on to no scope. -/
def ofProgram (program : List Argument → Program 1) : Function := .free Fin.elim0 program

/-- A function of its arguments alone. -/
def ofArguments (run : List Argument → Except EvalError Value) : Function :=
  .ofProgram fun arguments => .done (run arguments)

def choose : List Argument → Except EvalError Value
  | [condition, positive, negative] => do
    let value ← condition.value ()
    if value.truthy then positive.value () else negative.value ()
  | _ => .error (.arity "if" 3)

end Function

end Formula
