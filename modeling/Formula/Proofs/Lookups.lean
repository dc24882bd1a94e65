import Formula.Proofs.Recording

/-! The names that an evaluation looks up. Each stands at a place that the evaluation comes
to, and one without an answer is the failure of the whole. A name that stands only where the
evaluation passes over is not looked up. -/

namespace Formula

open Recorded

namespace Expr

def lookup? : Expr → Option Lookup
  | .field name => some (.value name)
  | .call name _ => some (.function name)
  | _ => none

variable {scope : Scope} {lookup : Lookup}

private theorem mem_lookups_lift {outcome : Except EvalError α} {next : α → Recorded β}
    (member : lookup ∈ ((liftM outcome : Recorded α) >>= next).lookups) :
    ∃ x, outcome = .ok x ∧ lookup ∈ (next x).lookups := by
  rcases mem_lookups_bind.mp member with member | found
  · cases member
  · exact found

theorem eval_of_outcome {expr : Expr} {value : Value} (found : (expr.record scope).outcome = .ok value) :
    expr.eval scope = .ok value := (outcome_record scope expr).symm.trans found

private theorem mem_lookups_operand {operand : Expr} {next : Float → Recorded α}
    (member : lookup ∈ (operand.record scope >>= fun value => liftM value.toNumber >>= next).lookups) :
    lookup ∈ (operand.record scope).lookups ∨ ∃ x, operand.number scope = .ok x ∧ lookup ∈ (next x).lookups := by
  rcases mem_lookups_bind.mp member with member | ⟨value, found, member⟩
  · exact .inl member
  · obtain ⟨x, number, member⟩ := mem_lookups_lift member
    exact .inr ⟨x, bind_eq_ok.mpr ⟨value, eval_of_outcome found, number⟩, member⟩

private theorem mem_lookups_argument {kind : Kind} {argument : Expr} {next : kind.Carrier → Recorded α}
    (member : lookup ∈ (argument.record scope >>= fun value => liftM (kind.coerce value) >>= next).lookups) :
    lookup ∈ (argument.record scope).lookups ∨
      ∃ value, argument.coerced scope kind = .ok value ∧ lookup ∈ (next value).lookups := by
  rcases mem_lookups_bind.mp member with member | ⟨value, found, member⟩
  · exact .inl member
  · obtain ⟨carried, fits, member⟩ := mem_lookups_lift member
    exact .inr ⟨carried, bind_eq_ok.mpr ⟨value, eval_of_outcome found, fits⟩, member⟩

private theorem mem_lookups_terms {terms : List (Operator × Expr)} {x : Float}
    (member : lookup ∈ (recordTerms scope x terms).lookups) : ∃ index operand,
      ComesTo (IsNumber scope) (terms.map Prod.snd) index operand ∧ lookup ∈ (operand.record scope).lookups := by
  induction terms generalizing x with
  | nil => cases member
  | cons term terms ih =>
    obtain ⟨operator, operand⟩ := term
    rcases mem_lookups_operand member with member | ⟨y, number, member⟩
    · exact ⟨0, operand, .first, member⟩
    · obtain ⟨index, part, comes, member⟩ := ih member
      exact ⟨index + 1, part, .next ⟨y, number⟩ comes, member⟩

private theorem mem_lookups_optional {kinds : List Kind} {arguments : List Expr}
    (member : lookup ∈ (Declared.recordOptional kinds (recordArguments scope arguments)).lookups) : ∃ index kind argument,
      ComesTo (Fits scope) (kinds.zip arguments) index (kind, argument) ∧ lookup ∈ (argument.record scope).lookups := by
  induction kinds generalizing arguments with
  | nil => cases member
  | cons kind kinds ih =>
    cases arguments with
    | nil =>
      rcases mem_lookups_bind.mp member with member | ⟨values, -, member⟩
      · obtain ⟨index, kind', argument, comes, -⟩ := @ih [] member
        rw [List.zip_nil_right] at comes
        cases comes
      · cases member
    | cons argument arguments =>
      rcases mem_lookups_argument member with member | ⟨value, fits, member⟩
      · exact ⟨0, kind, argument, .first, member⟩
      rcases mem_lookups_bind.mp member with member | ⟨values, -, member⟩
      · obtain ⟨index, kind', argument', comes, member⟩ := ih member
        exact ⟨index + 1, kind', argument', .next ⟨value, fits⟩ comes, member⟩
      · cases member

private theorem mem_lookups_collect (function : Declared) {kinds : List Kind} {arguments : List Expr}
    (member : lookup ∈ (function.recordCollect kinds (recordArguments scope arguments)).lookups) : ∃ index kind argument,
      ComesTo (Fits scope) ((kinds ++ function.optional).zip arguments) index (kind, argument) ∧
        lookup ∈ (argument.record scope).lookups := by
  induction kinds generalizing arguments with
  | nil =>
    rcases mem_lookups_bind.mp member with member | ⟨values, -, member⟩
    · exact mem_lookups_optional member
    · cases member
  | cons kind kinds ih =>
    cases arguments with
    | nil => cases member
    | cons argument arguments =>
      rcases mem_lookups_argument member with member | ⟨value, fits, member⟩
      · exact ⟨0, kind, argument, .first, member⟩
      rcases mem_lookups_bind.mp member with member | ⟨values, -, member⟩
      · obtain ⟨index, kind', argument', comes, member⟩ := ih member
        exact ⟨index + 1, kind', argument', .next ⟨value, fits⟩ comes, member⟩
      · cases member

theorem length_recordArguments (scope : Scope) (arguments : List Expr) :
    (recordArguments scope arguments).length = arguments.length := by
  induction arguments with
  | nil => rfl
  | cons argument arguments ih => simp only [recordArguments, List.length_cons, ih]

theorem mem_lookups_call {name : String} {arguments : List Expr} {function : Function}
    (found : scope.function? name = some function) (valued : function.Valued)
    (member : lookup ∈ (function.record scope (evalArguments scope arguments) (recordArguments scope arguments)).lookups) :
    ∃ index part, Asks scope (call name arguments) index part ∧ lookup ∈ (part.record scope).lookups := by
  have length := length_recordArguments scope arguments
  cases valued with
  | declared function =>
    simp only [Function.record, Declared.record, length] at member
    split at member
    · cases member
    split at member
    · cases member
    rename_i few many
    rcases mem_lookups_bind.mp member with member | ⟨values, -, member⟩
    · obtain ⟨index, kind, argument, comes, member⟩ := mem_lookups_collect function member
      have admits : function.Admits arguments.length := by
        rw [Declared.Admits, Declared.kinds, List.length_append]
        omega
      exact ⟨index, argument, .argument found admits comes, member⟩
    · cases member
  | conditional =>
    by_cases three : arguments.length = 3
    · obtain ⟨condition, positive, negative, rfl⟩ := List.length_eq_three.mp three
      rcases mem_lookups_bind.mp member with member | ⟨value, solved, member⟩
      · exact ⟨0, condition, .condition found, member⟩
      have solved := eval_of_outcome solved
      cases holds : value.truthy with
      | true =>
        rw [if_pos holds] at member
        exact ⟨1, positive, .positive found solved holds, member⟩
      | false =>
        rw [if_neg (Bool.eq_false_iff.mp holds)] at member
        exact ⟨2, negative, .negative found solved holds, member⟩
    · rw [Function.record, Function.recordChoice_of_length (length ▸ three)] at member
      cases member

theorem lookup?_or_asks (valued : scope.Valued) {expr : Expr} (member : lookup ∈ (expr.record scope).lookups) :
    expr.lookup? = some lookup ∨ ∃ index part, Asks scope expr index part ∧ lookup ∈ (part.record scope).lookups := by
  cases expr with
  | literal value => cases member
  | field name => exact .inl (congrArg some (List.mem_singleton.mp member).symm)
  | chain head terms =>
    rcases mem_lookups_operand member with member | ⟨x, number, member⟩
    · exact .inr ⟨0, head, .operand .first, member⟩
    rcases mem_lookups_bind.mp member with member | ⟨result, -, member⟩
    · obtain ⟨index, operand, comes, member⟩ := mem_lookups_terms member
      exact .inr ⟨index + 1, operand, .operand (.next ⟨x, number⟩ comes), member⟩
    · cases member
  | comparison left relation right =>
    rcases mem_lookups_bind.mp member with member | ⟨x, solved, member⟩
    · exact .inr ⟨0, left, .left, member⟩
    rcases mem_lookups_bind.mp member with member | ⟨y, -, member⟩
    · exact .inr ⟨1, right, .right ⟨x, eval_of_outcome solved⟩, member⟩
    · obtain ⟨holds, -, member⟩ := mem_lookups_lift member
      cases member
  | group inner => exact .inr ⟨0, inner, .inner, member⟩
  | call name arguments =>
    rcases mem_lookups_bind.mp member with member | ⟨function, found, member⟩
    · exact .inl (congrArg some (List.mem_singleton.mp member).symm)
    · have found := outcome_recordFunction found
      exact .inr (mem_lookups_call found (valued name function found) member)

/-- A name that is looked up stands at a place that the evaluation comes to. -/
theorem exists_reached_of_mem (valued : scope.Valued) (expr : Expr) (member : lookup ∈ (expr.record scope).lookups) :
    ∃ path target, Reached scope expr path target ∧ target.lookup? = some lookup := by
  rcases lookup?_or_asks valued member with own | ⟨index, part, asks, member⟩
  · exact ⟨[], expr, .root expr, own⟩
  · have smaller := asks.depth_lt
    obtain ⟨path, target, reached, own⟩ := exists_reached_of_mem valued part member
    exact ⟨index :: path, target, .part asks reached, own⟩
termination_by expr.depth

/-- A variable without a value is the failure of the whole if it is looked up. -/
theorem eval_of_missing_variable (valued : scope.Valued) {expr : Expr} {name : String}
    (member : .value name ∈ (expr.record scope).lookups) (missing : scope.value? name = none) :
    expr.eval scope = .error (.unresolved name) := by
  obtain ⟨path, target, reached, own⟩ := exists_reached_of_mem valued expr member
  apply reached.eval_of_error
  cases target with
  | field other =>
    cases own
    simp only [eval_field, missing]
  | call | literal | chain | comparison | group => cases own

theorem eval_of_missing_function (valued : scope.Valued) {expr : Expr} {name : String}
    (member : .function name ∈ (expr.record scope).lookups) (missing : scope.function? name = none) :
    expr.eval scope = .error (.undefined name) := by
  obtain ⟨path, target, reached, own⟩ := exists_reached_of_mem valued expr member
  apply reached.eval_of_error
  cases target with
  | call other arguments =>
    cases own
    simp only [eval_call, missing]
  | field | literal | chain | comparison | group => cases own

/-- Scopes that answer alike the names that are looked up in one of them give the same outcome. -/
theorem eval_of_lookups {first second : Scope} (valued : first.Valued) {expr : Expr}
    (alike : ∀ lookup ∈ (expr.record first).lookups, first.Alike second lookup) : expr.eval second = expr.eval first := by
  rw [← outcome_record, ← outcome_record, record_repeats valued second expr alike]

/-- The places that an evaluation passes over: the arguments of a call that is refused for its
name or its number of arguments, the branch that a condition does not select, and all that
comes after a part that fails or is of another kind than its place demands. -/
inductive Skipped (scope : Scope) : Expr → List Nat → Prop where
  | undefined {name arguments index path} (missing : scope.function? name = none) :
      Skipped scope (.call name arguments) (index :: path)
  | count {name function arguments index path} (declared : scope.function? name = some (.declared function))
      (refused : ¬ function.Admits arguments.length) : Skipped scope (.call name arguments) (index :: path)
  | branches {name arguments index path} (conditional : scope.function? name = some .conditional)
      (other : arguments.length ≠ 3) : Skipped scope (.call name arguments) (index :: path)
  | negative {name condition positive negative value path} (conditional : scope.function? name = some .conditional)
      (solved : condition.eval scope = .ok value) (holds : value.truthy = true) :
      Skipped scope (.call name [condition, positive, negative]) (2 :: path)
  | positive {name condition positive negative value path} (conditional : scope.function? name = some .conditional)
      (solved : condition.eval scope = .ok value) (fails : value.truthy = false) :
      Skipped scope (.call name [condition, positive, negative]) (1 :: path)
  | after {expr earlier part index path} (asks : Asks scope expr earlier part)
      (ends : (∃ error, part.eval scope = .error error) ∨
        ∃ value, part.eval scope = .ok value ∧ Refuses scope expr earlier value)
      (later : earlier < index) : Skipped scope expr (index :: path)
  | inside {expr index part path} (here : expr.parts[index]? = some part) (below : Skipped scope part path) :
      Skipped scope expr (index :: path)

/-- The evaluation does not come to a place that it passes over. -/
theorem Reached.not_skipped {expr target : Expr} {path : List Nat} (reached : Reached scope expr path target) :
    ¬ Skipped scope expr path := by
  induction reached with
  | root expr => exact nofun
  | part asks below ih =>
    intro skipped
    cases skipped with
    | undefined missing => exact asks.known missing
    | count declared refused => exact refused (asks.admits declared)
    | branches conditional other => exact other (asks.three conditional)
    | negative conditional solved holds =>
      cases asks with
      | negative _ solved' fails =>
        cases solved.symm.trans solved'
        cases holds.symm.trans fails
      | argument declared => cases conditional.symm.trans declared
    | positive conditional solved fails =>
      cases asks with
      | positive _ solved' holds =>
        cases solved.symm.trans solved'
        cases holds.symm.trans fails
      | argument declared => cases conditional.symm.trans declared
    | after first ends later =>
      obtain ⟨value, solved, passes⟩ := asks.passed first later
      rcases ends with ⟨error, failed⟩ | ⟨value', solved', refuses⟩
      · cases solved.symm.trans failed
      · cases solved.symm.trans solved'
        exact passes refuses
    | inside here below =>
      cases here.symm.trans asks.parts
      exact ih below

/-- A scope that answers alike all names that an evaluation looks up in another one repeats it:
the same names in the same order, the same value or failure. A name that stands only where the
evaluation passes over is none of them. -/
theorem eval_of_alike (expr : Expr) (first second : Scope) (valued : first.Valued)
    (alike : ∀ lookup ∈ (expr.record first).lookups, first.Alike second lookup) :
    (∀ scope, (expr.record scope).outcome = expr.eval scope) ∧
    ((expr.record second).lookups = (expr.record first).lookups ∧ expr.eval second = expr.eval first) ∧
    ∀ lookup, (∀ path target, expr.at? path = some target → target.lookup? = some lookup → Skipped first expr path) →
      lookup ∉ (expr.record first).lookups := by
  have repeated : expr.record second = expr.record first := record_repeats valued second expr alike
  refine ⟨fun scope => outcome_record scope expr, ⟨congrArg Recorded.lookups repeated, eval_of_lookups valued alike⟩, ?_⟩
  intro lookup skipped member
  obtain ⟨path, target, reached, own⟩ := exists_reached_of_mem valued expr member
  exact reached.not_skipped (skipped path target reached.at? own)

/-- Neither the other branch nor what comes after the text in the branch is looked up. -/
theorem eval_of_alike_branch :
    let formula : Expr := .chain (.call "if" [.field "a", .field "b", .call "f" [.field "c"]]) [(.add, .field "d")]
    let functions : String → Option Function := fun name => if name = "if" then some .conditional else none
    let first : Scope := ⟨fun name => if name = "b" then some (.text "t") else some (.number 1), functions⟩
    let second : Scope := ⟨fun name => if name = "b" then some (.text "t") else if name = "a" then some (.number 1) else none,
      fun name => if name = "if" then some .conditional else some (.declared .root)⟩
    first.Valued ∧ (formula.record second).lookups = [.function "if", .value "a", .value "b"] ∧
      formula.eval second = formula.eval first := by
  intro formula functions first second
  have valued : first.Valued := by
    intro name function found
    by_cases conditional : name = "if"
    · cases (if_pos conditional).symm.trans found
      exact .conditional
    · cases (if_neg conditional).symm.trans found
  have names : (formula.record first).lookups = [.function "if", .value "a", .value "b"] := rfl
  have alike : ∀ lookup ∈ (formula.record first).lookups, first.Alike second lookup := by
    intro lookup member
    rw [names] at member
    rcases List.mem_cons.mp member with rfl | member
    · rfl
    rcases List.mem_pair.mp member with rfl | rfl <;> rfl
  obtain ⟨-, ⟨lookups, same⟩, -⟩ := eval_of_alike formula first second valued alike
  exact ⟨valued, lookups.trans names, same⟩

end Expr

end Formula
