import Formula.Evaluator
import Formula.Host.Functions

/-! Three small programs that use the library, each given by the lines that it prints. -/

namespace Formula.Demo

private def numbers (entries : List (String × Float)) : Variables :=
  .ofList (entries.map fun (name, x) => (name, .number x))

private def outcome (separator : String) (message : ε → String) : Except ε Value → String
  | .ok value => separator ++ value.display
  | .error error => ": " ++ message error

private def equation (text : String) (result : Except Error Value) : String :=
  text ++ outcome " = " Error.message result

/-- One-shot evaluation, with the functions of doubles and then with those of a host. -/
def oneShot : List String :=
  let known := numbers [("x", 4.5), ("y", 2)]
  let evaluator : Evaluator := ⟨Registry.standard.insertTable Host.demoTable, defaultLimit⟩
  ["(5+x)*y", "cos(0.1)", "sqrt(8, 3)", "x >= y", "'a' == 1"].map (fun text =>
    equation text (evaluateText known.value? text)) ++
  ["hypot(3, 4)", "label('side', hypot(x, y))", "if(x > 10, 'big', 'small')", "hypot(1)", "z * 2"].map
    (fun text => equation text (evaluator.evaluateText text known.value?))

/-- Turnovers of several days by one formula. -/
def batch : List String :=
  match Evaluator.standard.compile "if(price > 100, volume * price, 0)" with
  | .error error => [error.message]
  | .ok expr =>
    let days := [[("price", 120), ("volume", 3000)], [("price", 80), ("volume", 6000)], [("price", 150)]]
    let results := Evaluator.standard.evaluateBatch expr (days.map fun day => (numbers day).value?)
    results.zipIdx.map fun (result, day) => s!"Result {day}: " ++
      match result with
      | .ok (.number turnover) => "turnover " ++ Number.text turnover
      | .ok other => other.display
      | .error error => "error: " ++ error.message

/-- A number with at least one place. -/
private def placed (x : Float) : String :=
  let text := Number.text x
  if text.toList.contains '.' || !x.isFinite then text else text ++ ".0"

private def inspectValue : Value → String
  | .number x => "Number(" ++ placed x ++ ")"
  | .boolean holds => s!"Boolean({holds})"
  | .text content => "String(" ++ Quoted.text content ++ ")"
  | .null => "Null"

private def fields (name content : String) : String := name ++ " \x7b " ++ content ++ " \x7d"

private def inspectError : EvalError → String
  | .unresolved name => fields "UnresolvedVariable" ("name: " ++ Quoted.text name)
  | .mismatch value => fields "TypeMismatch" ("value: " ++ inspectValue value)
  | .unsupported operator => fields "UnsupportedOperator" ("op: " ++ Quoted.text operator)
  | .arity name expected => fields "Arity" ("name: " ++ Quoted.text name ++ s!", expected: {expected}")
  | .undefined name => fields "UndefinedFunction" ("name: " ++ Quoted.text name)
  | .failed text => "Function(" ++ Quoted.text text ++ ")"

/-- A result in a form that shows its shape. -/
private def inspect : Except EvalError Value → String
  | .ok value => "Ok(" ++ inspectValue value ++ ")"
  | .error error => "Err(" ++ inspectError error ++ ")"

/-- One formula compiled once, and the two policies for missing variables. -/
def compiledOnce : List String :=
  let evaluator := Evaluator.standard
  match evaluator.compile "price * 1.1 > limit", evaluator.compile "if(discount, price - discount, price)" with
  | .ok expr, .ok discounted =>
    let atPrice (price : Float) : String :=
      let known := numbers [("price", price), ("limit", 100)]
      "price " ++ Number.text price ++
        outcome ": " EvalError.message (evaluator.evaluate expr known.value?)
    let strict := numbers [("price", 120)]
    let lenient := strict.withMissing .null
    let depth := expr.depth
    ["AST: " ++ expr.text ++ s!" (depth {depth})"] ++ [80, 95, 120].map atPrice ++
      ["strict: " ++ inspect (evaluator.evaluate discounted strict.value?),
        "lenient: " ++ inspect (evaluator.evaluate discounted lenient.value?)]
  | _, _ => []

end Formula.Demo
