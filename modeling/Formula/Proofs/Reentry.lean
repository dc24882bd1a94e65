import Formula.Proofs.Meaning

/-! Programs of functions that run inside each other. An evaluation that does not come to the
bound on their depth has the outcome that it would have without a bound. Among declared
functions and conditionals no program runs at all. -/

namespace Formula

private theorem Function.callAbove_add (deeper : Calls) (first second : Nat) :
    callAbove deeper (first + second) = callAbove (callAbove deeper second) first := by
  induction first with
  | zero => rw [Nat.zero_add, callAbove]
  | succ first ih => rw [Nat.succ_add, callAbove, callAbove, ih]

theorem Function.Valued.callBy_eq {function : Function} (valued : function.Valued) (calls : Calls) (scope : Scope)
    (arguments : List Argument) : Function.callBy calls function scope arguments = function.call scope arguments := by
  cases valued with
  | declared function => rfl
  | conditional => rfl

namespace Expr

/-- What comes of a formula whatever calls there are below some depth is its outcome. -/
theorem eval_of_depth {scope : Scope} {expr : Expr} {outcome : Except EvalError Value} {depth : Nat}
    (above : depth ≤ Function.maxDepth) (settled : ∀ deeper, expr.evalBy (Function.callAbove deeper depth) scope = outcome) :
    expr.eval scope = outcome := by
  obtain ⟨rest, split⟩ := Nat.exists_eq_add_of_le (Nat.le_succ_of_le above)
  have calls : Function.call = Function.callAbove (Function.callAbove Function.overflow rest) depth := by
    rw [← Function.callAbove_add, ← split]
    rfl
  rw [eval, calls]
  exact settled _

mutual
/-- Calls that are made inside programs are of no account where functions see values only. -/
theorem evalBy_of_valued {scope : Scope} (valued : scope.Valued) (calls : Calls) : (expr : Expr) →
    expr.evalBy (Function.callBy calls) scope = expr.eval scope
  | .literal value => rfl
  | .field name => rfl
  | .chain head terms => by
    have later := fun x => evalTermsBy_of_valued valued calls x terms
    simp only [evalBy, evalBy_of_valued valued calls head, later, eval_chain, number, bind_assoc]
  | .comparison left relation right => by
    simp only [evalBy, evalBy_of_valued valued calls left, evalBy_of_valued valued calls right, eval_comparison]
  | .group inner => evalBy_of_valued valued calls inner
  | .call name arguments => by
    rw [evalBy, eval_call, evalArgumentsBy_of_valued valued calls arguments]
    cases found : scope.function? name with
    | none => rfl
    | some function => exact (valued name function found).callBy_eq calls scope _
termination_by structural expr => expr

theorem evalTermsBy_of_valued {scope : Scope} (valued : scope.Valued) (calls : Calls) (x : Float) :
    (terms : List (Operator × Expr)) → evalTermsBy (Function.callBy calls) scope x terms = evalTerms scope x terms
  | [] => rfl
  | (operator, operand) :: terms => by
    have later := fun x => evalTermsBy_of_valued valued calls x terms
    simp only [evalTermsBy, evalBy_of_valued valued calls operand, later, evalTerms_cons, number, bind_assoc]
termination_by structural terms => terms

theorem evalArgumentsBy_of_valued {scope : Scope} (valued : scope.Valued) (calls : Calls) : (arguments : List Expr) →
    evalArgumentsBy (Function.callBy calls) scope arguments = evalArguments scope arguments
  | [] => rfl
  | argument :: arguments => by
    rw [evalArgumentsBy, evalBy_of_valued valued calls argument, evalArgumentsBy_of_valued valued calls arguments,
      evalArguments_cons]
termination_by structural arguments => arguments
end

end Expr

end Formula
