import Formula.Proofs.FailFast

/-! Evaluation with a record of the names that it looks up. The recorded evaluation goes the
way of the plain one and has its outcome. It is repeated name by name in any scope that
answers the recorded names alike, and each of these names stands at a place that the
evaluation comes to. What a free function asks of its arguments is not recorded. -/

namespace Formula

/-- A name that an evaluation looks up. -/
inductive Lookup where
  | value (name : String)
  | function (name : String)
deriving DecidableEq, Repr

/-- An outcome with the names that were looked up on the way to it, in order. -/
structure Recorded (α : Type) where
  lookups : List Lookup
  outcome : Except EvalError α

namespace Recorded

def of (outcome : Except EvalError α) : Recorded α := ⟨[], outcome⟩

def andThen (first : Recorded α) (next : α → Recorded β) : Recorded β :=
  match first.outcome with
  | .ok x => ⟨first.lookups ++ (next x).lookups, (next x).outcome⟩
  | .error error => ⟨first.lookups, .error error⟩

instance : Monad Recorded where
  pure x := of (.ok x)
  bind := andThen

instance : MonadLift (Except EvalError) Recorded := ⟨of⟩

theorem outcome_bind (first : Recorded α) (next : α → Recorded β) :
    (first >>= next).outcome = (do
      let x ← first.outcome
      (next x).outcome) := by
  change (first.andThen next).outcome = _
  rw [andThen]
  cases first.outcome <;> rfl

theorem mem_lookups_bind {first : Recorded α} {next : α → Recorded β} {lookup : Lookup} :
    lookup ∈ (first >>= next).lookups ↔
      lookup ∈ first.lookups ∨ ∃ x, first.outcome = .ok x ∧ lookup ∈ (next x).lookups := by
  change lookup ∈ (first.andThen next).lookups ↔ _
  rw [andThen]
  cases first.outcome <;> simp

/-- A record is repeated if its names are answered alike. -/
def Repeats (alike : Lookup → Prop) (first second : Recorded α) : Prop :=
  (∀ lookup ∈ first.lookups, alike lookup) → second = first

variable {alike : Lookup → Prop}

theorem repeats_self (record : Recorded α) : Repeats alike record record := fun _ => rfl

theorem Repeats.bind_of_ok {first second : Recorded α} {next next' : α → Recorded β}
    (repeats : Repeats alike first second) (later : ∀ x, first.outcome = .ok x → Repeats alike (next x) (next' x)) :
    Repeats alike (first >>= next) (second >>= next') := by
  intro same
  have before : second = first := repeats fun lookup member => same lookup (mem_lookups_bind.mpr (.inl member))
  subst before
  change second.andThen next' = second.andThen next
  rw [andThen, andThen]
  cases found : second.outcome with
  | error error => rfl
  | ok x =>
    have rest := later x found fun lookup member => same lookup (mem_lookups_bind.mpr (.inr ⟨x, found, member⟩))
    simp only [rest]

theorem Repeats.bind {first second : Recorded α} {next next' : α → Recorded β} (repeats : Repeats alike first second)
    (later : ∀ x, Repeats alike (next x) (next' x)) : Repeats alike (first >>= next) (second >>= next') :=
  repeats.bind_of_ok fun x _ => later x

end Recorded

namespace Scope

def recordValue (scope : Scope) (name : String) : Recorded Value :=
  ⟨[.value name], match scope.value? name with
    | some value => .ok value
    | none => .error (.unresolved name)⟩

def recordFunction (scope : Scope) (name : String) : Recorded Function :=
  ⟨[.function name], match scope.function? name with
    | some function => .ok function
    | none => .error (.undefined name)⟩

def Alike (first second : Scope) : Lookup → Prop
  | .value name => second.value? name = first.value? name
  | .function name => second.function? name = first.function? name

end Scope

namespace Declared

def recordOptional : (kinds : List Kind) → List (Recorded Value) → Recorded (OptionalValues kinds)
  | [], _ => pure ()
  | _ :: kinds, [] => do return (none, ← recordOptional kinds [])
  | kind :: kinds, argument :: arguments => do
    let value ← argument
    let value ← kind.coerce value
    return (some value, ← recordOptional kinds arguments)

def recordCollect (function : Declared) : (kinds : List Kind) → List (Recorded Value) →
    Recorded (Values kinds × OptionalValues function.optional)
  | [], arguments => do return ((), ← recordOptional function.optional arguments)
  | _ :: _, [] => .of (.error (.arity function.name function.required.length))
  | kind :: kinds, argument :: arguments => do
    let value ← argument
    let value ← kind.coerce value
    let (values, others) ← function.recordCollect kinds arguments
    return ((value, values), others)

def record (function : Declared) (arguments : List (Recorded Value)) : Recorded Value :=
  if arguments.length < function.required.length then
    .of (.error (.arity function.name function.required.length))
  else if function.required.length + function.optional.length < arguments.length then
    .of (.error (.arity function.name (function.required.length + function.optional.length)))
  else do
    let (values, others) ← function.recordCollect function.required arguments
    function.body.apply values others

end Declared

namespace Function

def recordChoice : List (Recorded Value) → Recorded Value
  | [condition, positive, negative] => do
    let value ← condition
    if value.truthy then positive else negative
  | _ => .of (.error (.arity "if" 3))

theorem recordChoice_of_length {records : List (Recorded Value)} (other : records.length ≠ 3) :
    recordChoice records = .of (.error (.arity "if" 3)) := by
  match records with
  | [] | [_] | [_, _] | _ :: _ :: _ :: _ :: _ => rfl
  | [_, _, _] => exact absurd rfl other

def record (scope : Scope) (arguments : List Argument) (records : List (Recorded Value)) : Function → Recorded Value
  | declared function => function.record records
  | conditional => recordChoice records
  | free held program => .of ((free held program).call scope arguments)

end Function

namespace Expr

mutual
/-- Evaluation with a record. -/
def record (scope : Scope) : Expr → Recorded Value
  | .literal value => pure value
  | .field name => scope.recordValue name
  | .chain head terms => do
    let value ← head.record scope
    let x ← value.toNumber
    let result ← recordTerms scope x terms
    return .number result
  | .comparison left relation right => do
    let x ← left.record scope
    let y ← right.record scope
    let holds ← relation.apply x y
    return .boolean holds
  | .group inner => inner.record scope
  | .call name arguments => do
    let function ← scope.recordFunction name
    function.record scope (evalArguments scope arguments) (recordArguments scope arguments)
termination_by structural expr => expr

def recordTerms (scope : Scope) : Float → List (Operator × Expr) → Recorded Float
  | x, [] => pure x
  | x, (operator, operand) :: terms => do
    let value ← operand.record scope
    let y ← value.toNumber
    recordTerms scope (operator.apply x y) terms
termination_by structural _ terms => terms

def recordArguments (scope : Scope) : List Expr → List (Recorded Value)
  | [] => []
  | argument :: arguments => argument.record scope :: recordArguments scope arguments
termination_by structural arguments => arguments
end

end Expr

open Recorded

private theorem outcome_recordOptional (kinds : List Kind) {arguments : List Argument} {records : List (Recorded Value)}
    (same : argumentValues arguments = records.map outcome) :
    (Declared.recordOptional kinds records).outcome = Declared.collectOptional kinds arguments := by
  induction kinds generalizing arguments records with
  | nil => rfl
  | cons kind kinds ih =>
    cases arguments with
    | nil =>
      cases records with
      | nil =>
        simp only [Declared.recordOptional, Declared.collectOptional, outcome_bind, ih same]
        rfl
      | cons => cases same
    | cons argument arguments =>
      cases records with
      | nil => cases same
      | cons record records =>
        obtain ⟨first, later⟩ := List.cons.inj same
        simp only [Declared.recordOptional, Declared.collectOptional, outcome_bind, first, ih later]
        rfl

private theorem outcome_recordCollect (function : Declared) (kinds : List Kind) {arguments : List Argument}
    {records : List (Recorded Value)} (same : argumentValues arguments = records.map outcome) :
    (function.recordCollect kinds records).outcome = function.collect kinds arguments := by
  induction kinds generalizing arguments records with
  | nil =>
    simp only [Declared.recordCollect, Declared.collect, outcome_bind, outcome_recordOptional function.optional same]
    rfl
  | cons kind kinds ih =>
    cases arguments with
    | nil =>
      cases records with
      | nil => rfl
      | cons => cases same
    | cons argument arguments =>
      cases records with
      | nil => cases same
      | cons record records =>
        obtain ⟨first, later⟩ := List.cons.inj same
        simp only [Declared.recordCollect, Declared.collect, outcome_bind, first, ih later]
        rfl

theorem outcome_record_call (function : Function) (scope : Scope) {arguments : List Argument}
    {records : List (Recorded Value)} (same : argumentValues arguments = records.map outcome) :
    (function.record scope arguments records).outcome = function.call scope arguments := by
  have length : records.length = arguments.length := by
    simpa only [argumentValues, List.length_map] using (congrArg List.length same).symm
  cases function with
  | declared function =>
    simp only [Function.record, Declared.record, Function.call_declared, Declared.call, length]
    split
    · rfl
    split
    · rfl
    rw [outcome_bind, outcome_recordCollect function function.required same]
    rfl
  | conditional =>
    by_cases three : arguments.length = 3
    · obtain ⟨condition, positive, negative, rfl⟩ := List.length_eq_three.mp three
      obtain ⟨record, first, second, rfl⟩ := List.length_eq_three.mp (length.trans three)
      simp only [argumentValues, List.map_cons, List.map_nil, List.cons.injEq, and_true] at same
      obtain ⟨decision, yes, no⟩ := same
      simp only [Function.record, Function.recordChoice, Function.call_conditional, Function.choose, outcome_bind, decision,
        yes, no, apply_ite outcome]
    · simp only [Function.record, Function.call_conditional, Function.choose_of_length three,
        Function.recordChoice_of_length (length ▸ three)]
      rfl
  | free held program => rfl

namespace Expr

mutual
/-- A recorded evaluation has the outcome of the plain one. -/
theorem outcome_record (scope : Scope) : (expr : Expr) → (expr.record scope).outcome = expr.eval scope
  | .literal value => rfl
  | .field name => rfl
  | .chain head terms => by
    have later := fun x => outcome_recordTerms scope x terms
    simp only [record, eval_chain, number, outcome_bind, bind_assoc, outcome_record scope head, later]
    rfl
  | .comparison left relation right => by
    simp only [record, eval_comparison, outcome_bind, outcome_record scope left, outcome_record scope right]
    rfl
  | .group inner => outcome_record scope inner
  | .call name arguments => by
    have values := outcome_recordArguments scope arguments
    have called := fun function => outcome_record_call function scope values
    simp only [record, eval_call, outcome_bind, called]
    cases found : scope.function? name <;> simp only [Scope.recordFunction, found] <;> rfl
termination_by structural expr => expr

theorem outcome_recordTerms (scope : Scope) (x : Float) : (terms : List (Operator × Expr)) →
    (recordTerms scope x terms).outcome = evalTerms scope x terms
  | [] => rfl
  | (operator, operand) :: terms => by
    have later := fun x => outcome_recordTerms scope x terms
    simp only [recordTerms, evalTerms_cons, number, outcome_bind, bind_assoc, outcome_record scope operand, later]
    rfl
termination_by structural terms => terms

theorem outcome_recordArguments (scope : Scope) : (arguments : List Expr) →
    argumentValues (evalArguments scope arguments) = (recordArguments scope arguments).map outcome
  | [] => rfl
  | argument :: arguments => by
    have later := outcome_recordArguments scope arguments
    simp only [argumentValues] at later
    simp only [argumentValues, evalArguments_cons, recordArguments, List.map_cons, outcome_record scope argument, later]
termination_by structural arguments => arguments
end

end Expr

variable {alike : Lookup → Prop}

private theorem recordOptional_repeats (kinds : List Kind) {first second : List (Recorded Value)}
    (repeats : List.Forall₂ (Repeats alike) first second) :
    Repeats alike (Declared.recordOptional kinds first) (Declared.recordOptional kinds second) := by
  induction kinds generalizing first second with
  | nil => exact repeats_self _
  | cons kind kinds ih =>
    cases repeats with
    | nil => exact repeats_self _
    | cons here later =>
      apply here.bind
      intro _
      apply (repeats_self _).bind
      intro _
      exact (ih later).bind fun _ => repeats_self _

private theorem recordCollect_repeats (function : Declared) (kinds : List Kind) {first second : List (Recorded Value)}
    (repeats : List.Forall₂ (Repeats alike) first second) :
    Repeats alike (function.recordCollect kinds first) (function.recordCollect kinds second) := by
  induction kinds generalizing first second with
  | nil => exact (recordOptional_repeats function.optional repeats).bind fun _ => repeats_self _
  | cons kind kinds ih =>
    cases repeats with
    | nil => exact repeats_self _
    | cons here later =>
      apply here.bind
      intro _
      apply (repeats_self _).bind
      intro _
      exact (ih later).bind fun _ => repeats_self _

/-- A function that sees values only looks up the same names if its arguments do. -/
theorem Function.Valued.record_repeats {function : Function} (valued : function.Valued) (scope other : Scope)
    {arguments others : List Argument} {first second : List (Recorded Value)}
    (repeats : List.Forall₂ (Repeats alike) first second) :
    Repeats alike (function.record scope arguments first) (function.record other others second) := by
  have length := repeats.length_eq
  cases valued with
  | declared function =>
    simp only [Function.record, Declared.record, length]
    split
    · exact repeats_self _
    split
    · exact repeats_self _
    exact (recordCollect_repeats function function.required repeats).bind fun _ => repeats_self _
  | conditional =>
    by_cases three : first.length = 3
    · obtain ⟨condition, positive, negative, rfl⟩ := List.length_eq_three.mp three
      obtain ⟨condition', positive', negative', rfl⟩ := List.length_eq_three.mp (length.symm.trans three)
      simp only [List.forall₂_cons, List.forall₂_nil_right_iff] at repeats
      obtain ⟨decision, yes, no, -⟩ := repeats
      refine decision.bind fun value => ?_
      cases value.truthy with
      | true => exact yes
      | false => exact no
    · simp only [Function.record, Function.recordChoice_of_length three, Function.recordChoice_of_length (length ▸ three)]
      exact repeats_self _

theorem recordValue_repeats (first second : Scope) (name : String) :
    Repeats (first.Alike second) (first.recordValue name) (second.recordValue name) := by
  intro same
  have answer : second.value? name = first.value? name := same (.value name) List.mem_cons_self
  simp only [Scope.recordValue, answer]

theorem recordFunction_repeats (first second : Scope) (name : String) :
    Repeats (first.Alike second) (first.recordFunction name) (second.recordFunction name) := by
  intro same
  have answer : second.function? name = first.function? name := same (.function name) List.mem_cons_self
  simp only [Scope.recordFunction, answer]

theorem outcome_recordFunction {scope : Scope} {name : String} {function : Function}
    (found : (scope.recordFunction name).outcome = .ok function) : scope.function? name = some function := by
  simp only [Scope.recordFunction] at found
  cases known : scope.function? name with
  | none =>
    rw [known] at found
    cases found
  | some other =>
    rw [known] at found
    exact congrArg some (Except.ok.inj found)

namespace Expr

mutual
/-- An evaluation is repeated in every scope that answers its names alike. -/
theorem record_repeats {first : Scope} (valued : first.Valued) (second : Scope) : (expr : Expr) →
    Repeats (first.Alike second) (expr.record first) (expr.record second)
  | .literal value => repeats_self _
  | .field name => recordValue_repeats first second name
  | .chain head terms => by
    apply (record_repeats valued second head).bind
    intro _
    apply (repeats_self _).bind
    intro x
    exact (recordTerms_repeats valued second x terms).bind fun _ => repeats_self _
  | .comparison left _ right => by
    apply (record_repeats valued second left).bind
    intro _
    apply (record_repeats valued second right).bind
    intro _
    exact repeats_self _
  | .group inner => record_repeats valued second inner
  | .call name arguments => by
    apply (recordFunction_repeats first second name).bind_of_ok
    intro function found
    exact (valued name function (outcome_recordFunction found)).record_repeats first second
      (recordArguments_repeats valued second arguments)
termination_by structural expr => expr

theorem recordTerms_repeats {first : Scope} (valued : first.Valued) (second : Scope) (x : Float) :
    (terms : List (Operator × Expr)) → Repeats (first.Alike second) (recordTerms first x terms) (recordTerms second x terms)
  | [] => repeats_self _
  | (operator, operand) :: terms => by
    apply (record_repeats valued second operand).bind
    intro _
    apply (repeats_self _).bind
    intro y
    exact recordTerms_repeats valued second (operator.apply x y) terms
termination_by structural terms => terms

theorem recordArguments_repeats {first : Scope} (valued : first.Valued) (second : Scope) : (arguments : List Expr) →
    List.Forall₂ (Repeats (first.Alike second)) (recordArguments first arguments) (recordArguments second arguments)
  | [] => .nil
  | argument :: arguments => .cons (record_repeats valued second argument) (recordArguments_repeats valued second arguments)
termination_by structural arguments => arguments
end

end Expr

end Formula
