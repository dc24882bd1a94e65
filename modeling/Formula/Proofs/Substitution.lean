import Mathlib.Logic.Relation
import Formula.Proofs.FailFast

/-! Evaluation is compositional. The places of a formula are taken by other formulas, any number
of places at once; if each comes to what stood there, the whole comes to what it came to before,
whether or not the evaluation comes to these places. So brackets, values written in place of
their variables, and chains written as the head of a longer chain make no difference anywhere. -/

namespace Formula.Expr

/-- The formulas that are to take places of another one, by these places. -/
abbrev Marks := List Nat → Option Expr

def Marks.inside (marks : Marks) (index : Nat) : Marks := fun path => marks (index :: path)

mutual
/-- The formula with each marked place taken by its mark. A place below a marked one is gone. -/
def substitute (marks : Marks) : Expr → Expr
  | .literal value => (marks []).getD (.literal value)
  | .field name => (marks []).getD (.field name)
  | .chain head terms =>
    (marks []).getD (.chain (head.substitute (marks.inside 0)) (substituteTerms marks 1 terms))
  | .comparison left relation right =>
    (marks []).getD (.comparison (left.substitute (marks.inside 0)) relation (right.substitute (marks.inside 1)))
  | .group inner => (marks []).getD (.group (inner.substitute (marks.inside 0)))
  | .call name arguments => (marks []).getD (.call name (substituteArguments marks 0 arguments))
termination_by structural expr => expr

def substituteTerms (marks : Marks) : Nat → List (Operator × Expr) → List (Operator × Expr)
  | _, [] => []
  | index, (operator, operand) :: terms =>
    (operator, operand.substitute (marks.inside index)) :: substituteTerms marks (index + 1) terms
termination_by structural _ terms => terms

def substituteArguments (marks : Marks) : Nat → List Expr → List Expr
  | _, [] => []
  | index, argument :: arguments =>
    argument.substitute (marks.inside index) :: substituteArguments marks (index + 1) arguments
termination_by structural _ arguments => arguments
end

private theorem substitute_of_marked {marks : Marks} {replacement : Expr} (marked : marks [] = some replacement) (expr : Expr) :
    expr.substitute marks = replacement := by
  cases expr <;> simp only [substitute, marked, Option.getD_some]

private theorem operands_substituteTerms (marks : Marks) (index : Nat) (terms : List (Operator × Expr)) :
    (substituteTerms marks index terms).map Prod.snd = substituteArguments marks index (terms.map Prod.snd) := by
  induction terms generalizing index with
  | nil => rfl
  | cons term terms ih => exact congrArg (_ :: ·) (ih (index + 1))

private theorem getElem?_substituteArguments (marks : Marks) (index : Nat) (arguments : List Expr) (turn : Nat) :
    (substituteArguments marks index arguments)[turn]? =
      arguments[turn]?.map fun argument => argument.substitute (marks.inside (index + turn)) := by
  induction arguments generalizing index turn with
  | nil => rfl
  | cons argument arguments ih =>
    cases turn with
    | zero => rfl
    | succ turn =>
      rw [substituteArguments, List.getElem?_cons_succ, List.getElem?_cons_succ, ih (index + 1) turn]
      rw [show index + 1 + turn = index + (turn + 1) by omega]

private theorem length_substituteArguments (marks : Marks) (index : Nat) (arguments : List Expr) :
    (substituteArguments marks index arguments).length = arguments.length := by
  induction arguments generalizing index with
  | nil => rfl
  | cons argument arguments ih => exact congrArg (· + 1) (ih (index + 1))

variable {scope : Scope} {marks : Marks} {expr other : Expr}

theorem parts_substitute (unmarked : marks [] = none) (expr : Expr) :
    (expr.substitute marks).parts = substituteArguments marks 0 expr.parts := by
  cases expr <;>
    simp only [substitute, unmarked, Option.getD_none, parts, substituteArguments, operands_substituteTerms]

private theorem sameOperators_substituteTerms (marks : Marks) (index : Nat) (terms : List (Operator × Expr)) :
    SameOperators scope terms (substituteTerms marks index terms) := by
  induction terms generalizing index with
  | nil => exact .nil
  | cons term terms ih => exact .cons fun _ => ih (index + 1)

private theorem resembles_substitute (unmarked : marks [] = none) (expr : Expr) :
    Resembles scope expr (expr.substitute marks) := by
  cases expr with
  | literal value =>
    simp only [substitute, unmarked, Option.getD_none]
    exact .literal value
  | field name =>
    simp only [substitute, unmarked, Option.getD_none]
    exact .field name
  | chain head terms =>
    simp only [substitute, unmarked, Option.getD_none]
    exact .chain fun _ => sameOperators_substituteTerms marks 1 terms
  | comparison left relation right =>
    simp only [substitute, unmarked, Option.getD_none]
    exact .comparison relation
  | group inner =>
    simp only [substitute, unmarked, Option.getD_none]
    exact .group
  | call name arguments =>
    simp only [substitute, unmarked, Option.getD_none]
    exact .call name (length_substituteArguments marks 0 arguments)

/-- A mark with none above it stands at its place. -/
theorem at?_substitute {path : List Nat} {target replacement : Expr} (present : expr.at? path = some target)
    (marked : marks path = some replacement) (topmost : ∀ above, above <+: path → above ≠ path → marks above = none) :
    (expr.substitute marks).at? path = some replacement := by
  induction path generalizing expr marks with
  | nil => rw [substitute_of_marked marked, at?]
  | cons index path ih =>
    obtain ⟨part, here, present⟩ := exists_part_of_at? present
    have unmarked : marks [] = none := topmost [] List.nil_prefix (List.cons_ne_nil index path).symm
    have here' : (expr.substitute marks).parts[index]? = some (part.substitute (marks.inside index)) := by
      rw [parts_substitute unmarked, getElem?_substituteArguments, here, Nat.zero_add]
      rfl
    rw [at?_cons here']
    refine ih present marked fun above inside different => ?_
    exact topmost (index :: above) (List.cons_prefix_cons.mpr ⟨rfl, inside⟩) fun same => different (List.cons.inj same).2

/-- What is marked for the places of a formula is related to what stands there. -/
def Marks.Relates (related : Expr → Expr → Prop) (marks : Marks) (expr : Expr) : Prop :=
  ∀ path target replacement, expr.at? path = some target → marks path = some replacement → related target replacement

theorem Marks.Relates.inside {related : Expr → Expr → Prop} (relates : marks.Relates related expr) {index : Nat} {part : Expr}
    (here : expr.parts[index]? = some part) : (marks.inside index).Relates related part := by
  intro path target replacement present marked
  exact relates (index :: path) target replacement ((at?_cons here path).trans present) marked

/-- Two formulas come to the same value or failure. -/
def Equals (scope : Scope) (expr other : Expr) : Prop := other.eval scope = expr.eval scope

/-- Formulas that come to the same take each other's places. -/
theorem eval_substitute (valued : scope.Valued) (expr : Expr) {marks : Marks} (relates : marks.Relates (Equals scope) expr) :
    (expr.substitute marks).eval scope = expr.eval scope := by
  cases marked : marks [] with
  | some replacement =>
    rw [substitute_of_marked marked]
    exact relates [] expr replacement rfl marked
  | none =>
    refine (resembles_substitute marked expr).eval_eq valued ?_
    intro index part asks
    have smaller := asks.depth_lt
    refine ⟨part.substitute (marks.inside index), ?_, eval_substitute valued part (relates.inside asks.parts)⟩
    rw [parts_substitute marked, getElem?_substituteArguments, asks.parts, Nat.zero_add]
    rfl
termination_by expr.depth

/-- Changes of the shape of a formula that keep what it comes to: a bracket more or less, the
value of a variable for the variable, one chain for a chain with a chain as its head. -/
inductive Reshapes (scope : Scope) : Expr → Expr → Prop where
  | bracket (inner : Expr) : Reshapes scope inner (.group inner)
  | unbracket (inner : Expr) : Reshapes scope (.group inner) inner
  | resolve {name value} (found : scope.value? name = some value) : Reshapes scope (.field name) (.literal value)
  | flatten (head : Expr) (terms more : List (Operator × Expr)) :
      Reshapes scope (.chain (.chain head terms) more) (.chain head (terms ++ more))

theorem Reshapes.equals (reshapes : Reshapes scope expr other) : Equals scope expr other := by
  cases reshapes with
  | bracket | unbracket => rfl
  | resolve found => simp only [Equals, eval_field, eval_literal, found]
  | flatten head terms more =>
    rw [Equals, eval_chain, eval_chain, number_chain]
    simp only [evalTerms_append, bind_assoc]

/-- Some places of a formula are reshaped, all of them at once. -/
def Rewrites (scope : Scope) (expr other : Expr) : Prop :=
  ∃ marks : Marks, marks.Relates (Reshapes scope) expr ∧ other = expr.substitute marks

theorem Rewrites.equals (valued : scope.Valued) (rewrites : Rewrites scope expr other) : Equals scope expr other := by
  obtain ⟨marks, relates, rfl⟩ := rewrites
  apply eval_substitute valued
  intro path target replacement present marked
  exact (relates path target replacement present marked).equals

/-- Where places of a formula are taken by formulas that come to the same, so does the whole, and
what is marked for a place with no mark above it then stands there. In particular the whole comes
to the same after any number of brackets set or left out, variables written as their values, and
chains at the head of chains joined with them, wherever they are. -/
theorem eval_compositional (scope : Scope) (valued : scope.Valued) (expr : Expr) :
    (∀ marks : Marks, (∀ path target replacement, expr.at? path = some target → marks path = some replacement →
      replacement.eval scope = target.eval scope) → (expr.substitute marks).eval scope = expr.eval scope) ∧
    (∀ (marks : Marks) path target replacement, expr.at? path = some target → marks path = some replacement →
      (∀ above, above <+: path → above ≠ path → marks above = none) →
        (expr.substitute marks).at? path = some replacement) ∧
    ∀ other, Relation.ReflTransGen (Rewrites scope) expr other → other.eval scope = expr.eval scope := by
  refine ⟨fun marks same => eval_substitute valued expr same, fun _ _ _ _ => at?_substitute, ?_⟩
  intro other rewritten
  induction rewritten with
  | refl => rfl
  | tail _ step ih => exact (step.equals valued).trans ih

/-- Three parts of a call are replaced at once: the condition, the branch that it selects, which
fails, and the other one. -/
theorem eval_compositional_branch :
    let scope : Scope := ⟨fun name => if name = "x" then some (.number 2) else none, fun _ => some .conditional⟩
    let formula : Expr := .call "if" [.field "x", .chain (.chain (.field "x") [(.add, .field "y")])
      [(.multiply, .field "x")], .field "y"]
    let marks : Marks := fun path => match path with
      | [0] => some (.literal (.number 2))
      | [1] => some (.chain (.field "x") [(.add, .field "y"), (.multiply, .field "x")])
      | [2] => some (.group (.field "y"))
      | _ => none
    scope.Valued ∧ (formula.substitute marks).eval scope = .error (.unresolved "y") := by
  intro scope formula marks
  have valued : scope.Valued := by
    intro name function found
    cases found
    exact .conditional
  have same : ∀ path target replacement, formula.at? path = some target → marks path = some replacement →
      replacement.eval scope = target.eval scope := by
    intro path target replacement present marked
    simp only [marks] at marked
    split at marked
    case h_4 => cases marked
    all_goals
      obtain rfl := Option.some.inj present
      cases marked
      rfl
  have failed : formula.eval scope = .error (.unresolved "y") := rfl
  have whole := (eval_compositional scope valued formula).1 marks same
  exact ⟨valued, whole.trans failed⟩

end Formula.Expr
