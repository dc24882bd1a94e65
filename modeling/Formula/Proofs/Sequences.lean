import Formula.Proofs.Reached

/-! Operands and arguments in their order. The first of them that fails, or that is of another
kind than its place demands, is the failure of all, and those after it do not count. -/

namespace Formula

theorem Value.toNumber_eq_error {value : Value} {error : EvalError} (failed : value.toNumber = .error error) :
    error = .mismatch value := by
  cases value with
  | number x => cases failed
  | boolean | text | null => exact (Except.error.inj failed).symm

theorem Kind.coerce_eq_error {kind : Kind} {value : Value} {error : EvalError} (failed : kind.coerce value = .error error) :
    error = .mismatch value := by
  cases kind <;> cases value <;> first | exact (Except.error.inj failed).symm | cases failed

namespace Expr

variable {scope : Scope}

theorem number_of_error {expr : Expr} {error : EvalError} (failed : expr.eval scope = .error error) :
    expr.number scope = .error error := bind_eq_error.mpr (.inl failed)

theorem coerced_of_error {expr : Expr} {error : EvalError} (kind : Kind) (failed : expr.eval scope = .error error) :
    expr.coerced scope kind = .error error := bind_eq_error.mpr (.inl failed)

theorem number_eq_error {expr : Expr} {error : EvalError} (failed : expr.number scope = .error error) :
    expr.eval scope = .error error ∨
      ∃ value, expr.eval scope = .ok value ∧ error = .mismatch value ∧ value.toNumber = .error (.mismatch value) := by
  rcases bind_eq_error.mp failed with failed | ⟨value, solved, failed⟩
  · exact .inl failed
  · obtain rfl := Value.toNumber_eq_error failed
    exact .inr ⟨value, solved, rfl, failed⟩

theorem coerced_eq_error {kind : Kind} {expr : Expr} {error : EvalError} (failed : expr.coerced scope kind = .error error) :
    expr.eval scope = .error error ∨
      ∃ value, expr.eval scope = .ok value ∧ error = .mismatch value ∧ kind.coerce value = .error (.mismatch value) := by
  rcases bind_eq_error.mp failed with failed | ⟨value, solved, failed⟩
  · exact .inl failed
  · obtain rfl := Kind.coerce_eq_error failed
    exact .inr ⟨value, solved, rfl, failed⟩

theorem evalTerms_of_error {terms : List (Operator × Expr)} {index : Nat} {operand : Expr} {error : EvalError}
    (comes : ComesTo (IsNumber scope) (terms.map Prod.snd) index operand) (failed : operand.number scope = .error error)
    (x : Float) : evalTerms scope x terms = .error error := by
  induction terms generalizing index x with
  | nil => cases comes
  | cons term terms ih =>
    obtain ⟨operator, first⟩ := term
    rw [evalTerms_cons, bind_eq_error]
    cases comes with
    | first => exact .inl failed
    | next passed comes =>
      obtain ⟨y, passed⟩ := passed
      exact .inr ⟨y, passed, ih comes _⟩

theorem evalTerms_eq_error {terms : List (Operator × Expr)} {x : Float} {error : EvalError}
    (failed : evalTerms scope x terms = .error error) : ∃ index operand,
      ComesTo (IsNumber scope) (terms.map Prod.snd) index operand ∧ operand.number scope = .error error := by
  induction terms generalizing x with
  | nil => cases failed
  | cons term terms ih =>
    obtain ⟨operator, first⟩ := term
    rw [evalTerms_cons, bind_eq_error] at failed
    rcases failed with failed | ⟨y, number, failed⟩
    · exact ⟨0, first, .first, failed⟩
    · obtain ⟨index, operand, comes, failed⟩ := ih failed
      exact ⟨index + 1, operand, .next ⟨y, number⟩ comes, failed⟩

theorem collectOptional_cons (kind : Kind) (kinds : List Kind) (argument : Expr) (arguments : List Expr) :
    Declared.collectOptional (kind :: kinds) (evalArguments scope (argument :: arguments)) = (do
      let value ← argument.coerced scope kind
      return (some value, ← Declared.collectOptional kinds (evalArguments scope arguments))) := by
  simp only [evalArguments_cons, Declared.collectOptional, coerced, bind_assoc]

theorem collect_cons (function : Declared) (kind : Kind) (kinds : List Kind) (argument : Expr) (arguments : List Expr) :
    function.collect (kind :: kinds) (evalArguments scope (argument :: arguments)) = (do
      let value ← argument.coerced scope kind
      let (values, others) ← function.collect kinds (evalArguments scope arguments)
      return ((value, values), others)) := by
  simp only [evalArguments_cons, Declared.collect, coerced, bind_assoc]

private theorem collectOptional_nil (kinds : List Kind) : ∃ values, Declared.collectOptional kinds [] = .ok values := by
  induction kinds with
  | nil => exact ⟨_, rfl⟩
  | cons kind kinds ih =>
    obtain ⟨values, collected⟩ := ih
    exact ⟨(none, values), bind_eq_ok.mpr ⟨values, collected, rfl⟩⟩

private theorem collectOptional_of_error {kinds : List Kind} {arguments : List Expr} {index : Nat} {kind : Kind}
    {argument : Expr} {error : EvalError} (comes : ComesTo (Fits scope) (kinds.zip arguments) index (kind, argument))
    (failed : argument.coerced scope kind = .error error) :
    Declared.collectOptional kinds (evalArguments scope arguments) = .error error := by
  induction kinds generalizing arguments index with
  | nil => cases comes
  | cons first kinds ih =>
    cases arguments with
    | nil => cases comes
    | cons head arguments =>
      rw [collectOptional_cons, bind_eq_error]
      cases comes with
      | first => exact .inl failed
      | next passed comes =>
        obtain ⟨value, passed⟩ := passed
        exact .inr ⟨value, passed, bind_eq_error.mpr (.inl (ih comes))⟩

private theorem collectOptional_eq_error {kinds : List Kind} {arguments : List Expr} {error : EvalError}
    (failed : Declared.collectOptional kinds (evalArguments scope arguments) = .error error) : ∃ index kind argument,
      ComesTo (Fits scope) (kinds.zip arguments) index (kind, argument) ∧ argument.coerced scope kind = .error error := by
  induction kinds generalizing arguments with
  | nil => cases failed
  | cons kind kinds ih =>
    cases arguments with
    | nil =>
      obtain ⟨values, collected⟩ := collectOptional_nil (kind :: kinds)
      cases collected.symm.trans failed
    | cons argument arguments =>
      rw [collectOptional_cons, bind_eq_error] at failed
      rcases failed with failed | ⟨value, fits, failed⟩
      · exact ⟨0, kind, argument, .first, failed⟩
      · rcases bind_eq_error.mp failed with failed | ⟨values, -, failed⟩
        · obtain ⟨index, kind', argument', comes, failed⟩ := ih failed
          exact ⟨index + 1, kind', argument', .next ⟨value, fits⟩ comes, failed⟩
        · cases failed

/-- The first argument that its parameter refuses is the failure of all. -/
theorem collect_of_error (function : Declared) {kinds : List Kind} {arguments : List Expr} {index : Nat} {kind : Kind}
    {argument : Expr} {error : EvalError}
    (comes : ComesTo (Fits scope) ((kinds ++ function.optional).zip arguments) index (kind, argument))
    (failed : argument.coerced scope kind = .error error) :
    function.collect kinds (evalArguments scope arguments) = .error error := by
  induction kinds generalizing arguments index with
  | nil => exact bind_eq_error.mpr (.inl (collectOptional_of_error comes failed))
  | cons first kinds ih =>
    cases arguments with
    | nil => cases comes
    | cons head arguments =>
      rw [collect_cons, bind_eq_error]
      cases comes with
      | first => exact .inl failed
      | next passed comes =>
        obtain ⟨value, passed⟩ := passed
        exact .inr ⟨value, passed, bind_eq_error.mpr (.inl (ih comes))⟩

theorem collect_eq_error (function : Declared) {kinds : List Kind} {arguments : List Expr} {error : EvalError}
    (enough : kinds.length ≤ arguments.length)
    (failed : function.collect kinds (evalArguments scope arguments) = .error error) : ∃ index kind argument,
      ComesTo (Fits scope) ((kinds ++ function.optional).zip arguments) index (kind, argument) ∧
        argument.coerced scope kind = .error error := by
  induction kinds generalizing arguments with
  | nil =>
    rcases bind_eq_error.mp failed with failed | ⟨others, -, failed⟩
    · exact collectOptional_eq_error failed
    · cases failed
  | cons kind kinds ih =>
    cases arguments with
    | nil => cases enough
    | cons argument arguments =>
      rw [collect_cons, bind_eq_error] at failed
      rcases failed with failed | ⟨value, fits, failed⟩
      · exact ⟨0, kind, argument, .first, failed⟩
      · rcases bind_eq_error.mp failed with failed | ⟨values, -, failed⟩
        · obtain ⟨index, kind', argument', comes, failed⟩ := ih (Nat.le_of_succ_le_succ enough) failed
          exact ⟨index + 1, kind', argument', .next ⟨value, fits⟩ comes, failed⟩
        · cases failed

/-- Two chains have the same operators, and end alike, as far as the operands of the first are
numbers. -/
inductive SameOperators (scope : Scope) : List (Operator × Expr) → List (Operator × Expr) → Prop where
  | nil : SameOperators scope [] []
  | cons {operator operand other terms others} (later : operand.IsNumber scope → SameOperators scope terms others) :
      SameOperators scope ((operator, operand) :: terms) ((operator, other) :: others)

def Replaced (scope : Scope) (parts : List Expr) (index : Nat) (part : Expr) : Prop :=
  ∃ other, parts[index]? = some other ∧ other.eval scope = part.eval scope

theorem Replaced.first {other part : Expr} {parts : List Expr} (replaced : Replaced scope (other :: parts) 0 part) :
    other.eval scope = part.eval scope := by
  obtain ⟨found, here, same⟩ := replaced
  exact Option.some.inj here ▸ same

theorem evalTerms_replaced {terms others : List (Operator × Expr)} (operators : SameOperators scope terms others)
    (replaced : ∀ index operand, ComesTo (IsNumber scope) (terms.map Prod.snd) index operand →
      Replaced scope (others.map Prod.snd) index operand) (x : Float) :
    evalTerms scope x others = evalTerms scope x terms := by
  induction operators generalizing x with
  | nil => rfl
  | @cons operator operand other terms others later ih =>
    have first : other.number scope = operand.number scope := by
      simp only [Expr.number, (replaced 0 operand .first).first]
    rw [evalTerms_cons, evalTerms_cons, first]
    cases number : operand.number scope with
    | error error => rfl
    | ok y => exact ih ⟨y, number⟩ (fun index part comes => replaced (index + 1) part (.next ⟨y, number⟩ comes)) _

theorem collectOptional_replaced {kinds : List Kind} {arguments others : List Expr} (count : others.length = arguments.length)
    (replaced : ∀ index kind argument, ComesTo (Fits scope) (kinds.zip arguments) index (kind, argument) →
      Replaced scope others index argument) :
    Declared.collectOptional kinds (evalArguments scope others) =
      Declared.collectOptional kinds (evalArguments scope arguments) := by
  induction kinds generalizing arguments others with
  | nil => rfl
  | cons kind kinds ih =>
    cases arguments with
    | nil =>
      cases others with
      | nil => rfl
      | cons => cases count
    | cons argument arguments =>
      cases others with
      | nil => cases count
      | cons other others =>
        have first : other.coerced scope kind = argument.coerced scope kind := by
          simp only [coerced, (replaced 0 kind argument .first).first]
        rw [collectOptional_cons, collectOptional_cons, first]
        cases fits : argument.coerced scope kind with
        | error error => rfl
        | ok value =>
          have later := ih (Nat.succ.inj count) fun index kind argument comes =>
            replaced (index + 1) kind argument (.next ⟨value, fits⟩ comes)
          rw [later]

theorem collect_replaced (function : Declared) {kinds : List Kind} {arguments others : List Expr}
    (count : others.length = arguments.length)
    (replaced : ∀ index kind argument, ComesTo (Fits scope) ((kinds ++ function.optional).zip arguments) index (kind, argument) →
      Replaced scope others index argument) :
    function.collect kinds (evalArguments scope others) = function.collect kinds (evalArguments scope arguments) := by
  induction kinds generalizing arguments others with
  | nil =>
    rw [List.nil_append] at replaced
    simp only [Declared.collect, collectOptional_replaced count replaced]
  | cons kind kinds ih =>
    cases arguments with
    | nil =>
      cases others with
      | nil => rfl
      | cons => cases count
    | cons argument arguments =>
      cases others with
      | nil => cases count
      | cons other others =>
        have first : other.coerced scope kind = argument.coerced scope kind := by
          simp only [coerced, (replaced 0 kind argument .first).first]
        rw [collect_cons, collect_cons, first]
        cases fits : argument.coerced scope kind with
        | error error => rfl
        | ok value =>
          have later := ih (Nat.succ.inj count) fun index kind argument comes =>
            replaced (index + 1) kind argument (.next ⟨value, fits⟩ comes)
          rw [later]

end Expr

end Formula
