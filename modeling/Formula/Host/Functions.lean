import Formula.Function.Builtin
import Formula.Expr.Printer
import Formula.Hypotenuse

/-! Functions that a host may register beside those of the language. They show each sort of
parameter, what a function can do with arguments that it does not evaluate, and what it can do
with the scope that it is called in. -/

namespace Formula.Host

def answer : Declared := ⟨"answer", [], [], .ok (.number 42)⟩

def clamp : Declared := ⟨"clamp", [.number, .number, .number], [], fun x low high =>
  .ok (.number (if x < low then low else if high < x then high else x))⟩

def label : Declared := ⟨"label", [.text, .number], [], fun name x =>
  .ok (.text (name ++ "=" ++ Number.text x))⟩

def negate : Declared := ⟨"negate", [.boolean], [], fun flag => .ok (.boolean !flag)⟩

def kind : Declared := ⟨"kind", [.any], [], fun value => .ok (.text (Value.kindName value))⟩

/-- The first value unless it is null, then the second if there is one. -/
def coalesce : Declared := ⟨"coalesce", [.any], [.any], fun value other =>
  .ok (if Value.isNull value then Option.getD other .null else value)⟩

def join : Declared := ⟨"join", [.text], [.text, .text], fun first separator second =>
  .ok (.text (first ++ Option.getD separator "" ++ Option.getD second ""))⟩

/-- Lets a number through if the gate is open; `force` overrides the gate. -/
def gate : Declared := ⟨"gate", [.boolean], [.number, .boolean], fun isOpen x force =>
  .ok (if Option.getD force isOpen then Value.ofOption Value.number x else .boolean false)⟩

def hypot : Declared := ⟨"hypot", [.number, .number], [], fun a b => .ok (.number (hypotenuse a b))⟩

def sum (arguments : List Argument) : Except EvalError Value := do
  let total ← arguments.foldlM (fun total argument => do
    let value ← argument.value ()
    let x ← value.toNumber
    return total + x) (0 : Float)
  return .number total

def first : List Argument → Except EvalError Value
  | [] => .ok .null
  | argument :: _ => argument.value ()

def count (arguments : List Argument) : Except EvalError Value :=
  .ok (.number (Float.ofNat arguments.length))

/-- The texts of the arguments. -/
def source (arguments : List Argument) : Except EvalError Value :=
  .ok (.text ("; ".intercalate (arguments.map fun argument => argument.source.text)))

def depth (arguments : List Argument) : Except EvalError Value :=
  .ok (.number (Float.ofNat (arguments.foldl (fun depth argument => max depth argument.source.depth) 0)))

/-- Fails in the words of its first argument. -/
def fail : List Argument → Except EvalError Value
  | [] => .error (.failed "failed")
  | argument :: _ => do
    let value ← argument.value ()
    throw (.failed value.display)

/-- Evaluates the denominator first, and the numerator only if that is not zero. -/
def ratio : List Argument → Except EvalError Value
  | [numerator, denominator] => do
    let value ← denominator.value ()
    let y ← value.toNumber
    if y == 0 then throw (.failed "ratio denominator must not be zero")
    let value ← numerator.value ()
    let x ← value.toNumber
    return .number (x / y)
  | _ => .error (.arity "ratio" 2)

/-- Evaluates its last argument among the same functions with one more variable, which has the
name and the value of the first two. -/
def binding : Function :=
  .ofProgram fun
    | [name, value, body] =>
      let bound := do
        let name ← name.value ()
        return (← Kind.coerce .text name, ← value.value ())
      match bound with
      | .error error => .done (.error error)
      | .ok (name, value) => .read 0 fun value? =>
        .extend (fun other => if other = name then some value else value? other)
          (fun function arguments => .call 1 function 0 (arguments.map Argument.source) .done)
          (.solve 0 body.source .done)
    | _ => .done (.error (.arity "let" 3))

/-- All of them but `hypot` and `binding`, each under its own name. -/
def table : Table :=
  Table.ofDeclared [answer, clamp, label, negate, kind, coalesce, join, gate] ++
  [("sum", .ofArguments sum), ("first", .ofArguments first), ("count", .ofArguments count),
    ("source", .ofArguments source), ("depth", .ofArguments depth), ("fail", .ofArguments fail),
    ("ratio", .ofArguments ratio)]

def demoTable : Table := .ofDeclared [hypot, label]

end Formula.Host
