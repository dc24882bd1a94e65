import Formula.Evaluator

/-! A host with state: an evaluator and a spare one, the nesting limit for evaluators to come,
one set of variables, and compiled formulas by name. -/

namespace Formula

structure Session where
  evaluator : Evaluator := .standard
  spare : Evaluator := .standard
  limit : Nat := defaultLimit
  known : Variables := {}
  formulas : Std.TreeMap String Expr := ∅

namespace Session

/-- A new evaluator with these functions and the limit of the session. -/
def withRegistry (session : Session) (registry : Registry) : Session :=
  { session with evaluator := ⟨registry, session.limit⟩ }

/-- A new evaluator with the functions of a group over those there are. -/
def install (session : Session) (group : Group) : Session :=
  session.withRegistry (session.evaluator.registry.insertTable group.table)

def register (session : Session) (name : String) (function : Function) : Session :=
  { session with evaluator := session.evaluator.register name function }

/-- Sets the limit of the session and of its evaluator, not of the spare one. -/
def withLimit (session : Session) (limit : Nat) : Session :=
  { session with limit, evaluator := { session.evaluator with limit } }

def fork (session : Session) : Session := { session with spare := session.evaluator }

def swap (session : Session) : Session :=
  { session with evaluator := session.spare, spare := session.evaluator }

def setVariable (session : Session) (name : String) (value : Value) : Session :=
  { session with known := session.known.insert name value }

def setMissing (session : Session) (missing : Missing) : Session :=
  { session with known := session.known.withMissing missing }

/-- Compiles a formula and keeps it under a name; a text that does not compile changes nothing. -/
def define (session : Session) (name text : String) : Except CompileError (Expr × Session) := do
  let expr ← session.evaluator.compile text
  return (expr, { session with formulas := session.formulas.insert name expr })

def formula? (session : Session) (name : String) : Option Expr := session.formulas.get? name

def evaluateText (session : Session) (text : String) : Except Error Value :=
  session.evaluator.evaluateText text session.known.value?

def evaluate (session : Session) (expr : Expr) : Except EvalError Value :=
  session.evaluator.evaluate expr session.known.value?

end Session

end Formula
