import Formula.Eval
import Formula.Proofs.RoundTrip

/-! When two formulas mean the same. A function that sees the values of its arguments only
cannot tell apart arguments of equal values, whether or not it asks for them. A chain comes
to a number, and one more term applies its operator to that number. -/

namespace Formula

theorem Function.call_declared (function : Declared) (scope : Scope) (arguments : List Argument) :
    (declared function).call scope arguments = function.call arguments := rfl

theorem Function.call_conditional (scope : Scope) (arguments : List Argument) :
    conditional.call scope arguments = choose arguments := rfl

/-- Functions that see the values of their arguments only. -/
inductive Function.Valued : Function → Prop where
  | declared (function : Declared) : Valued (.declared function)
  | conditional : Valued .conditional

def Scope.Valued (scope : Scope) : Prop := ∀ name, ∀ function ∈ scope.function? name, function.Valued

def argumentValues (arguments : List Argument) : List (Except EvalError Value) :=
  arguments.map fun argument => argument.value ()

private theorem collectOptional_congr (kinds : List Kind) {arguments others : List Argument}
    (same : argumentValues arguments = argumentValues others) :
    Declared.collectOptional kinds arguments = Declared.collectOptional kinds others := by
  induction kinds generalizing arguments others with
  | nil => rfl
  | cons kind kinds ih =>
    cases arguments with
    | nil =>
      cases others with
      | nil => rfl
      | cons other others => cases same
    | cons argument arguments =>
      cases others with
      | nil => cases same
      | cons other others =>
        obtain ⟨first, later⟩ := List.cons.inj same
        simp only [Declared.collectOptional, first, ih later]

private theorem collect_congr (function : Declared) (kinds : List Kind) {arguments others : List Argument}
    (same : argumentValues arguments = argumentValues others) :
    function.collect kinds arguments = function.collect kinds others := by
  induction kinds generalizing arguments others with
  | nil => simp only [Declared.collect, collectOptional_congr function.optional same]
  | cons kind kinds ih =>
    cases arguments with
    | nil =>
      cases others with
      | nil => rfl
      | cons other others => cases same
    | cons argument arguments =>
      cases others with
      | nil => cases same
      | cons other others =>
        obtain ⟨first, later⟩ := List.cons.inj same
        simp only [Declared.collect, first, ih later]

private theorem choose_congr {arguments others : List Argument} (same : argumentValues arguments = argumentValues others) :
    Function.choose arguments = Function.choose others := by
  have length : arguments.length = others.length := by
    simpa only [argumentValues, List.length_map] using congrArg List.length same
  match arguments, others with
  | [], [] | [_], [_] | [_, _], [_, _] | _ :: _ :: _ :: _ :: _, _ :: _ :: _ :: _ :: _ => rfl
  | [condition, positive, negative], [condition', positive', negative'] =>
    simp only [argumentValues, List.map_cons, List.map_nil, List.cons.injEq, and_true] at same
    obtain ⟨first, second, third⟩ := same
    simp only [Function.choose, first, second, third]
  | [], _ :: _ | _ :: _, [] | [_], _ :: _ :: _ | _ :: _ :: _, [_] | [_, _], _ :: _ :: _ :: _
  | _ :: _ :: _ :: _, [_, _] | [_, _, _], _ :: _ :: _ :: _ :: _ | _ :: _ :: _ :: _ :: _, [_, _, _] =>
    simp at length

theorem Function.Valued.call_congr {function : Function} (valued : function.Valued) (scope : Scope)
    {arguments others : List Argument} (same : argumentValues arguments = argumentValues others) :
    function.call scope arguments = function.call scope others := by
  cases valued with
  | declared function =>
    have length : arguments.length = others.length := by
      simpa only [argumentValues, List.length_map] using congrArg List.length same
    simp only [Function.call_declared, Declared.call, length, collect_congr function function.required same]
  | conditional => exact choose_congr same

namespace Expr

open Grammar

theorem eval_literal (scope : Scope) (value : Value) : (literal value).eval scope = .ok value := rfl

theorem eval_field (scope : Scope) (name : String) :
    (field name).eval scope = match scope.value? name with
      | some value => .ok value
      | none => .error (.unresolved name) := rfl

theorem eval_comparison (scope : Scope) (left : Expr) (relation : Relation) (right : Expr) :
    (comparison left relation right).eval scope = (do
      let x ← left.eval scope
      let y ← right.eval scope
      let holds ← relation.apply x y
      return .boolean holds) := rfl

theorem eval_call (scope : Scope) (name : String) (arguments : List Expr) :
    (call name arguments).eval scope = match scope.function? name with
      | some function => function.call scope (evalArguments scope arguments)
      | none => .error (.undefined name) := rfl

theorem evalArguments_cons (scope : Scope) (argument : Expr) (arguments : List Expr) :
    evalArguments scope (argument :: arguments) =
      ⟨argument, fun _ => argument.eval scope⟩ :: evalArguments scope arguments := rfl

def number (scope : Scope) (expr : Expr) : Except EvalError Float := do
  let value ← expr.eval scope
  value.toNumber

/-- Equal values and failures wherever functions see values only. -/
def Agrees (expr again : Expr) : Prop := ∀ scope : Scope, scope.Valued → again.eval scope = expr.eval scope

theorem Agrees.refl (expr : Expr) : Agrees expr expr := fun _ _ => rfl

theorem Agrees.number {expr again : Expr} (agrees : Agrees expr again) (scope : Scope) (valued : scope.Valued) :
    again.number scope = expr.number scope := by
  simp only [Expr.number, agrees scope valued]

theorem evalTerms_nil (scope : Scope) (x : Float) : evalTerms scope x [] = pure x := rfl

theorem evalTerms_cons (scope : Scope) (x : Float) (operator : Operator) (operand : Expr) (terms : List (Operator × Expr)) :
    evalTerms scope x ((operator, operand) :: terms) = (do
      let y ← operand.number scope
      evalTerms scope (operator.apply x y) terms) := by
  rw [Expr.number, bind_assoc]
  rfl

theorem evalTerms_append (scope : Scope) (x : Float) (terms more : List (Operator × Expr)) :
    evalTerms scope x (terms ++ more) = (do
      let y ← evalTerms scope x terms
      evalTerms scope y more) := by
  induction terms generalizing x with
  | nil => rfl
  | cons term terms ih =>
    obtain ⟨operator, operand⟩ := term
    simp only [List.cons_append, evalTerms_cons, ih, bind_assoc]

theorem eval_chain (scope : Scope) (head : Expr) (terms : List (Operator × Expr)) :
    (chain head terms).eval scope = (do
      let x ← head.number scope
      let result ← evalTerms scope x terms
      return .number result) := by
  rw [Expr.number, bind_assoc]
  rfl

theorem number_of_eval {scope : Scope} {expr : Expr} {meaning : Except EvalError Float}
    (eval : expr.eval scope = (do return .number (← meaning))) : expr.number scope = meaning := by
  have back : ∀ x : Float, Value.toNumber (.number x) = pure x := fun _ => rfl
  simp only [Expr.number, eval, bind_assoc, pure_bind, back, bind_pure]

theorem number_chain (scope : Scope) (head : Expr) (terms : List (Operator × Expr)) :
    (chain head terms).number scope = (do
      let x ← head.number scope
      evalTerms scope x terms) := by
  apply number_of_eval
  rw [eval_chain, bind_assoc]

/-- A last term applies its operator to what the chain before it comes to. -/
theorem eval_joined_snoc (scope : Scope) (head : Expr) (terms : List (Operator × Expr)) (operator : Operator)
    (operand : Expr) : (joined head (terms ++ [(operator, operand)])).eval scope = (do
      let x ← (joined head terms).number scope
      let y ← operand.number scope
      return .number (operator.apply x y)) := by
  have whole : joined head (terms ++ [(operator, operand)]) = .chain head (terms ++ [(operator, operand)]) :=
    joined_of_ne_nil (List.append_ne_nil_of_right_ne_nil terms (List.cons_ne_nil _ _))
  have before : (joined head terms).number scope = (do
      let x ← head.number scope
      evalTerms scope x terms) := by
    cases terms with
    | nil => exact (bind_pure _).symm
    | cons term terms => exact number_chain scope head (term :: terms)
  rw [whole, before, eval_chain]
  simp only [evalTerms_append, evalTerms_cons, evalTerms_nil, bind_assoc, pure_bind]

end Expr

end Formula
