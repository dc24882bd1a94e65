import Formula.Proofs.FailFast

/-! How a declared function is called, whatever its parameters. The number of arguments is
looked at before any of them; then the first argument that fails, or that is of another kind than
its parameter, is the outcome; and if there is none, the body gets the values of the arguments
in their order. A parameter has no value only if its argument is left out: `null` is a value
like any other, and a parameter may refuse it. -/

namespace Formula

inductive Kind.Takes : Kind → Value → Prop where
  | number (x : Float) : Takes .number (.number x)
  | boolean (holds : Bool) : Takes .boolean (.boolean holds)
  | text (content : String) : Takes .text (.text content)
  | any (value : Value) : Takes .any value

def Kind.value : (kind : Kind) → kind.Carrier → Value
  | number, x => .number x
  | boolean, holds => .boolean holds
  | text, content => .text content
  | any, value => value

theorem Kind.Takes.coerce {kind : Kind} {value : Value} (takes : kind.Takes value) :
    ∃ carried, kind.coerce value = .ok carried ∧ kind.value carried = value := by
  cases takes with
  | number x => exact ⟨x, rfl, rfl⟩
  | boolean holds => exact ⟨holds, rfl, rfl⟩
  | text content => exact ⟨content, rfl, rfl⟩
  | any value => exact ⟨value, rfl, rfl⟩

theorem Kind.takes_of_coerce {kind : Kind} {value : Value} {carried : kind.Carrier}
    (coerced : kind.coerce value = .ok carried) : kind.Takes value := by
  cases kind <;> cases value <;> cases coerced <;> constructor

def Values.toList : {kinds : List Kind} → Values kinds → List Value
  | [], _ => []
  | kind :: _, (carried, values) => kind.value carried :: toList values

def OptionalValues.toList : {kinds : List Kind} → OptionalValues kinds → List (Option Value)
  | [], _ => []
  | kind :: _, (carried, values) => carried.map kind.value :: toList values

/-- What a body gets are the values given, in the order of its parameters. The optional
parameters that none is left for, the last ones, get none. -/
structure Receives {required optional : List Kind} (given : List Value) (values : Values required)
    (others : OptionalValues optional) : Prop where
  first : values.toList = given.take required.length
  later : others.toList = (given.drop required.length).map some ++
    List.replicate (required.length + optional.length - given.length) none

namespace Expr

variable {scope : Scope} {kind : Kind} {kinds : List Kind} {argument : Expr} {arguments : List Expr} {value : Value}

def Suits (scope : Scope) (place : Kind × Expr) : Prop :=
  ∃ value, place.2.eval scope = .ok value ∧ place.1.Takes value

theorem Suits.coerced (suits : Suits scope (kind, argument)) : ∃ value carried,
    argument.eval scope = .ok value ∧ argument.coerced scope kind = .ok carried ∧ kind.value carried = value := by
  obtain ⟨value, solved, takes⟩ := suits
  obtain ⟨carried, coerced, same⟩ := takes.coerce
  exact ⟨value, carried, solved, bind_eq_ok.mpr ⟨value, solved, coerced⟩, same⟩

theorem Suits.fits (suits : Suits scope (kind, argument)) : Fits scope (kind, argument) := by
  obtain ⟨value, carried, -, coerced, -⟩ := suits.coerced
  exact ⟨carried, coerced⟩

private theorem suits_of_coerced {carried : kind.Carrier} (coerced : argument.coerced scope kind = .ok carried) :
    Suits scope (kind, argument) := by
  obtain ⟨value, solved, coerced⟩ := bind_eq_ok.mp coerced
  exact ⟨value, solved, Kind.takes_of_coerce coerced⟩

private theorem coerced_of_not_takes (solved : argument.eval scope = .ok value) (other : ¬ kind.Takes value) :
    argument.coerced scope kind = .error (.mismatch value) := by
  cases outcome : kind.coerce value with
  | ok carried => exact absurd (Kind.takes_of_coerce outcome) other
  | error error =>
    obtain rfl := Kind.coerce_eq_error outcome
    exact bind_eq_error.mpr (.inr ⟨value, solved, outcome⟩)

private theorem collectOptional_of_suits (most : arguments.length ≤ kinds.length)
    (suits : ∀ place ∈ kinds.zip arguments, Suits scope place) :
    ∃ (given : List Value) (others : OptionalValues kinds), arguments.map (eval scope) = given.map .ok ∧
      OptionalValues.toList others = given.map some ++ List.replicate (kinds.length - given.length) none ∧
      Declared.collectOptional kinds (evalArguments scope arguments) = .ok others := by
  induction kinds generalizing arguments with
  | nil =>
    obtain rfl := List.length_eq_zero_iff.mp (Nat.le_zero.mp most)
    exact ⟨[], (), rfl, rfl, rfl⟩
  | cons kind kinds ih =>
    cases arguments with
    | nil =>
      obtain ⟨given, others, evaluated, listed, collected⟩ := @ih [] (Nat.zero_le _) (by simp)
      obtain rfl := List.map_eq_nil_iff.mp evaluated.symm
      exact ⟨[], (none, others), rfl, congrArg (none :: ·) listed, bind_eq_ok.mpr ⟨others, collected, rfl⟩⟩
    | cons argument arguments =>
      obtain ⟨first, later⟩ := List.forall_mem_cons.mp suits
      obtain ⟨value, carried, solved, coerced, rfl⟩ := first.coerced
      obtain ⟨given, others, evaluated, listed, collected⟩ := ih (Nat.le_of_succ_le_succ most) later
      refine ⟨kind.value carried :: given, (some carried, others), ?_, ?_, ?_⟩
      · rw [List.map_cons, List.map_cons, solved, evaluated]
      · simp [OptionalValues.toList, listed]
      · rw [collectOptional_cons]
        exact bind_eq_ok.mpr ⟨carried, coerced, bind_eq_ok.mpr ⟨others, collected, rfl⟩⟩

private theorem collect_of_suits (function : Declared) (least : kinds.length ≤ arguments.length)
    (most : arguments.length ≤ kinds.length + function.optional.length)
    (suits : ∀ place ∈ (kinds ++ function.optional).zip arguments, Suits scope place) :
    ∃ (given : List Value) (values : Values kinds) (others : OptionalValues function.optional),
      arguments.map (eval scope) = given.map .ok ∧ Receives given values others ∧
      function.collect kinds (evalArguments scope arguments) = .ok (values, others) := by
  induction kinds generalizing arguments with
  | nil =>
    rw [List.length_nil, Nat.zero_add] at most
    obtain ⟨given, others, evaluated, listed, collected⟩ := collectOptional_of_suits most suits
    refine ⟨given, (), others, evaluated, ⟨rfl, ?_⟩, bind_eq_ok.mpr ⟨others, collected, rfl⟩⟩
    rw [List.length_nil, Nat.zero_add]
    exact listed
  | cons kind kinds ih =>
    cases arguments with
    | nil => cases least
    | cons argument arguments =>
      obtain ⟨first, later⟩ := List.forall_mem_cons.mp suits
      obtain ⟨value, carried, solved, coerced, rfl⟩ := first.coerced
      rw [List.length_cons, List.length_cons] at least most
      obtain ⟨given, values, others, evaluated, receives, collected⟩ := ih (by omega) (by omega) later
      refine ⟨kind.value carried :: given, (carried, values), others, ?_, ⟨?_, ?_⟩, ?_⟩
      · rw [List.map_cons, List.map_cons, solved, evaluated]
      · exact congrArg (_ :: ·) receives.first
      · rw [receives.later, List.length_cons, List.length_cons, List.drop_succ_cons]
        congr 2
        omega
      · rw [collect_cons]
        exact bind_eq_ok.mpr ⟨carried, coerced, bind_eq_ok.mpr ⟨(values, others), collected, rfl⟩⟩

/-- The argument of this number is the first that its parameter does not take. -/
structure FirstMisfit (scope : Scope) (kinds : List Kind) (arguments : List Expr) (index : Nat) (kind : Kind)
    (argument : Expr) : Prop where
  parameter : kinds[index]? = some kind
  stands : arguments[index]? = some argument
  misfit : ¬ Suits scope (kind, argument)
  earlier : ∀ turn < index, ∀ place, (kinds.zip arguments)[turn]? = some place → Suits scope place

variable {index : Nat}

theorem FirstMisfit.comes (first : FirstMisfit scope kinds arguments index kind argument) :
    ComesTo (Fits scope) (kinds.zip arguments) index (kind, argument) := by
  have present : (kinds.zip arguments)[index]? = some (kind, argument) :=
    List.getElem?_zip_eq_some.mpr ⟨first.parameter, first.stands⟩
  exact comesTo_of_getElem? present fun turn before place here => (first.earlier turn before place here).fits

theorem FirstMisfit.agree {others : List Expr} (first : FirstMisfit scope kinds arguments index kind argument)
    (same : ∀ turn ≤ index, others[turn]? = arguments[turn]?) :
    FirstMisfit scope kinds others index kind argument where
  parameter := first.parameter
  stands := (same index (Nat.le_refl index)).trans first.stands
  misfit := first.misfit
  earlier := by
    intro turn before place here
    obtain ⟨parameter, stands⟩ := List.getElem?_zip_eq_some.mp here
    rw [same turn (Nat.le_of_lt before)] at stands
    exact first.earlier turn before place (List.getElem?_zip_eq_some.mpr ⟨parameter, stands⟩)

section

variable {name : String} {function : Declared} (declared : scope.function? name = some (.declared function))
include declared

theorem FirstMisfit.eval_call {error : EvalError} (admits : function.Admits arguments.length)
    (first : FirstMisfit scope function.kinds arguments index kind argument)
    (failed : argument.coerced scope kind = .error error) : (call name arguments).eval scope = .error error := by
  rw [eval_call_admits declared admits]
  exact bind_eq_error.mpr (.inl (collect_of_error function first.comes failed))

/-- What stands behind the first misfit has no weight. -/
theorem FirstMisfit.eval_call_agree {others : List Expr} (admits : function.Admits arguments.length)
    (first : FirstMisfit scope function.kinds arguments index kind argument) (admits' : function.Admits others.length)
    (same : ∀ turn ≤ index, others[turn]? = arguments[turn]?) :
    (call name others).eval scope = (call name arguments).eval scope := by
  cases outcome : argument.coerced scope kind with
  | ok carried => exact absurd (suits_of_coerced outcome) first.misfit
  | error error => rw [first.eval_call declared admits outcome, (first.agree same).eval_call declared admits' outcome]

theorem eval_call_of_suits (admits : function.Admits arguments.length)
    (suits : ∀ place ∈ function.kinds.zip arguments, Suits scope place) :
    ∃ (given : List Value) (values : Values function.required) (others : OptionalValues function.optional),
      arguments.map (eval scope) = given.map .ok ∧ Receives given values others ∧
      (call name arguments).eval scope = function.body.apply values others := by
  have most := admits.2
  rw [Declared.kinds, List.length_append] at most
  obtain ⟨given, values, others, evaluated, receives, collected⟩ := collect_of_suits function admits.1 most suits
  refine ⟨given, values, others, evaluated, receives, ?_⟩
  rw [eval_call_admits declared admits, collected]
  rfl

end

/-- Whatever the parameters and the body of a function, too few or too many arguments are refused
whatever they are. Else the first argument that fails or is of another kind than its parameter
decides, whatever stands behind it; and if there is none, the body gets the values of all
arguments, and nothing for the parameters beyond them. -/
theorem eval_call_convention (scope : Scope) (name : String) (function : Declared)
    (declared : scope.function? name = some (.declared function)) (arguments : List Expr) :
    (arguments.length < function.required.length →
      (call name arguments).eval scope = .error (.arity function.name function.required.length)) ∧
    (function.kinds.length < arguments.length →
      (call name arguments).eval scope = .error (.arity function.name function.kinds.length)) ∧
    (function.Admits arguments.length → ∀ index kind argument, FirstMisfit scope function.kinds arguments index kind argument →
      (∀ error, argument.eval scope = .error error → (call name arguments).eval scope = .error error) ∧
      (∀ value, argument.eval scope = .ok value → (call name arguments).eval scope = .error (.mismatch value)) ∧
      ∀ others : List Expr, function.Admits others.length → (∀ turn ≤ index, others[turn]? = arguments[turn]?) →
        (call name others).eval scope = (call name arguments).eval scope) ∧
    (function.Admits arguments.length → (∀ place ∈ function.kinds.zip arguments, Suits scope place) →
      ∃ (given : List Value) (values : Values function.required) (others : OptionalValues function.optional),
        arguments.map (eval scope) = given.map .ok ∧ Receives given values others ∧
        (call name arguments).eval scope = function.body.apply values others) := by
  refine ⟨eval_call_few declared, eval_call_many declared, ?_, eval_call_of_suits declared⟩
  intro admits index kind argument first
  refine ⟨?_, ?_, fun others => first.eval_call_agree declared admits⟩
  · intro error failed
    exact first.eval_call declared admits (coerced_of_error kind failed)
  · intro value solved
    have other : ¬ kind.Takes value := fun takes => first.misfit ⟨value, solved, takes⟩
    exact first.eval_call declared admits (coerced_of_not_takes solved other)

/-- A given `null` is a value, other than an argument that is left out; and a parameter for
truth values refuses it. -/
theorem eval_call_convention_null :
    let function : Declared := ⟨"pick", [.number, .text], [.any, .boolean], fun _ content given holds =>
      .ok (if holds.isSome then .boolean true else given.getD (.text content))⟩
    let scope : Scope := ⟨fun _ => none, fun _ => some (.declared function)⟩
    let first := [Expr.literal (.number 1), .literal (.text "none")]
    (call "f" [.field "x"]).eval scope = .error (.arity "pick" 2) ∧
    (call "f" (first ++ [.literal .null, .literal .null, .field "x", .field "x"])).eval scope = .error (.arity "pick" 4) ∧
    (call "f" (first ++ [.literal .null, .literal .null])).eval scope = .error (.mismatch .null) ∧
    (call "f" (first ++ [.literal .null])).eval scope = .ok .null ∧ (call "f" first).eval scope = .ok (.text "none") := by
  intro function scope first
  have declared : scope.function? "f" = some (.declared function) := rfl
  have misfit : FirstMisfit scope function.kinds (first ++ [.literal .null, .literal .null]) 3 .boolean (.literal .null) := by
    refine ⟨rfl, rfl, ?_, ?_⟩
    · rintro ⟨value, solved, takes⟩
      cases solved
      cases takes
    · intro turn before place here
      match turn with
      | 0 =>
        cases here
        exact ⟨_, rfl, .number 1⟩
      | 1 =>
        cases here
        exact ⟨_, rfl, .text "none"⟩
      | 2 =>
        cases here
        exact ⟨_, rfl, .any .null⟩
  have admits : function.Admits (first ++ [Expr.literal .null, .literal .null]).length := by decide
  refine ⟨?_, ?_, ?_, rfl, rfl⟩
  · exact (eval_call_convention scope "f" function declared _).1 (by decide)
  · exact (eval_call_convention scope "f" function declared _).2.1 (by decide)
  · obtain ⟨-, mismatch, -⟩ := (eval_call_convention scope "f" function declared _).2.2.1 admits 3 .boolean _ misfit
    exact mismatch .null rfl

end Expr

end Formula
