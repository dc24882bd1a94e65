import Formula.Proofs.Catalogue

/-! Where results and failures come from, with the functions that come with the language.
Operators, comparisons and functions of doubles make numbers and truth values and nothing
else, so a text or `null` that an evaluation ends in is handed on from where it was written
or looked up. Each failure is accounted for by a part of the formula and what the scope
has for it. -/

namespace Formula

/-- The kinds of values that no evaluation makes. -/
def Value.Given : Value → Prop
  | .text _ | .null => True
  | .number _ | .boolean _ => False

inductive Function.Takes : Function → Nat → Nat → Prop where
  | declared (function : Declared) : Takes (.declared function) function.required.length function.kinds.length
  | conditional : Takes .conditional 3 3

/-- All functions of a scope are those of the language, each under its own name. -/
def Scope.Standard (scope : Scope) : Prop := ∀ name, ∀ function ∈ scope.function? name, Function.Standard name function

theorem Scope.Standard.valued {scope : Scope} (standard : scope.Standard) : scope.Valued :=
  fun name function found => (standard name function found).quiet.valued

theorem standard_scope (value? : String → Option Value) : Scope.Standard ⟨value?, Registry.standard.find?⟩ :=
  fun _ _ found => standard_of_find? found

namespace Expr

variable {scope : Scope} {expr part : Expr} {index : Nat} {value : Value} {error : EvalError}

def Supplies (scope : Scope) (expr : Expr) (value : Value) : Prop :=
  (∃ path, expr.at? path = some (.literal value)) ∨
    ∃ path name, expr.at? path = some (.field name) ∧ scope.value? name = some value

theorem Supplies.enclose (supplies : part.Supplies scope value) (here : expr.parts[index]? = some part) :
    expr.Supplies scope value := by
  rcases supplies with ⟨path, present⟩ | ⟨path, name, present, found⟩
  · exact .inl ⟨index :: path, (at?_cons here path).trans present⟩
  · exact .inr ⟨index :: path, name, (at?_cons here path).trans present, found⟩

private theorem asks_of_call {name : String} {arguments : List Expr} {function : Function}
    (standard : Function.Standard name function) (found : scope.function? name = some function)
    (solved : (call name arguments).eval scope = .ok value) (given : value.Given) :
    ∃ index part, Asks scope (call name arguments) index part ∧ part.eval scope = .ok value := by
  cases standard with
  | @declared function numerical =>
    rcases function.few_or_many_or_admits arguments.length with few | many | admits
    · cases (eval_call_few found few).symm.trans solved
    · cases (eval_call_many found many).symm.trans solved
    rw [eval_call_admits found admits] at solved
    obtain ⟨⟨values, others⟩, -, solved⟩ := bind_eq_ok.mp solved
    obtain ⟨x, number⟩ := numerical.result values others
    cases number.symm.trans solved
    exact given.elim
  | conditional =>
    by_cases three : arguments.length = 3
    · obtain ⟨condition, positive, negative, rfl⟩ := List.length_eq_three.mp three
      rw [eval_call_three found] at solved
      obtain ⟨decision, decided, solved⟩ := bind_eq_ok.mp solved
      cases holds : decision.truthy with
      | true =>
        rw [if_pos holds] at solved
        exact ⟨1, positive, .positive found decided holds, solved⟩
      | false =>
        rw [if_neg (Bool.eq_false_iff.mp holds)] at solved
        exact ⟨2, negative, .negative found decided holds, solved⟩
    · cases (eval_call_branches found three).symm.trans solved

/-- A text or `null` that a formula comes to is its own or that of a part that it asks for. -/
theorem own_or_asks (standard : scope.Standard) (solved : expr.eval scope = .ok value) (given : value.Given) :
    expr = .literal value ∨ (∃ name, expr = .field name ∧ scope.value? name = some value) ∨
      ∃ index part, Asks scope expr index part ∧ part.eval scope = .ok value := by
  cases expr with
  | literal written =>
    cases solved
    exact .inl rfl
  | field name =>
    simp only [eval_field] at solved
    cases found : scope.value? name with
    | none =>
      rw [found] at solved
      cases solved
    | some held =>
      rw [found] at solved
      cases solved
      exact .inr (.inl ⟨name, rfl, found⟩)
  | chain head terms =>
    rw [eval_chain] at solved
    obtain ⟨x, -, solved⟩ := bind_eq_ok.mp solved
    obtain ⟨result, -, solved⟩ := bind_eq_ok.mp solved
    cases solved
    exact given.elim
  | comparison left relation right =>
    obtain ⟨x, -, solved⟩ := bind_eq_ok.mp solved
    obtain ⟨y, -, solved⟩ := bind_eq_ok.mp solved
    obtain ⟨holds, -, solved⟩ := bind_eq_ok.mp solved
    cases solved
    exact given.elim
  | group inner => exact .inr (.inr ⟨0, inner, .inner, solved⟩)
  | call name arguments =>
    cases found : scope.function? name with
    | none =>
      simp only [eval_call, found] at solved
      cases solved
    | some function => exact .inr (.inr (asks_of_call (standard name function found) found solved given))

/-- What is handed on is followed down the parts to where it stands. -/
theorem supplies_of_eval (standard : scope.Standard) (expr : Expr) (solved : expr.eval scope = .ok value)
    (given : value.Given) : expr.Supplies scope value := by
  rcases own_or_asks standard solved given with rfl | ⟨name, rfl, found⟩ | ⟨index, part, asks, solved'⟩
  · exact .inl ⟨[], rfl⟩
  · exact .inr ⟨[], name, rfl, found⟩
  · have smaller := asks.depth_lt
    exact (supplies_of_eval standard part solved' given).enclose asks.parts
termination_by expr.depth

/-- What accounts for a failure: a part of the formula, and what the scope has for it. Nothing
accounts for an operator that is not supported or for a failure in a function's own words. -/
inductive Accounted (scope : Scope) (expr : Expr) : EvalError → Prop where
  | unresolved (path : List Nat) {name} (stands : expr.at? path = some (.field name)) (missing : scope.value? name = none) :
      Accounted scope expr (.unresolved name)
  | undefined (path : List Nat) {name arguments} (stands : expr.at? path = some (.call name arguments))
      (missing : scope.function? name = none) : Accounted scope expr (.undefined name)
  | arity (path : List Nat) {name arguments function least most expected}
      (stands : expr.at? path = some (.call name arguments)) (known : scope.function? name = some function)
      (takes : function.Takes least most)
      (missed : (arguments.length < least ∧ expected = least) ∨ (most < arguments.length ∧ expected = most)) :
      Accounted scope expr (.arity name expected)
  | mismatch {value : Value} (other : ∀ x, value ≠ .number x) (supplied : value.Given → expr.Supplies scope value) :
      Accounted scope expr (.mismatch value)

theorem Accounted.enclose (accounted : Accounted scope part error) (here : expr.parts[index]? = some part) :
    Accounted scope expr error := by
  have within : ∀ {path target}, part.at? path = some target → expr.at? (index :: path) = some target :=
    fun present => (at?_cons here _).trans present
  cases accounted with
  | unresolved path stands missing => exact .unresolved (index :: path) (within stands) missing
  | undefined path stands missing => exact .undefined (index :: path) (within stands) missing
  | arity path stands known takes missed => exact .arity (index :: path) (within stands) known takes missed
  | mismatch other supplied => exact .mismatch other fun given => (supplied given).enclose here

theorem Accounted.below {path : List Nat} {target : Expr} (accounted : Accounted scope target error)
    (reached : Reached scope expr path target) : Accounted scope expr error := by
  induction reached with
  | root => exact accounted
  | part asks below ih => exact (ih accounted).enclose asks.parts

private theorem Refuses.ne_number (standard : scope.Standard) (refuses : Refuses scope expr index value) (x : Float) :
    value ≠ .number x := by
  rintro rfl
  cases refuses with
  | operand other => cases other
  | argument declared place other =>
    cases standard _ _ declared with
    | declared numerical =>
      obtain rfl := numerical.kinds _ (List.mem_of_getElem? place)
      cases other

/-- The cause of a failure accounts for it. -/
theorem Raises.accounted (standard : scope.Standard) (raises : Raises scope expr error) : Accounted scope expr error := by
  cases raises with
  | unresolved missing => exact .unresolved [] rfl missing
  | undefined missing => exact .undefined [] rfl missing
  | few declared few =>
    cases standard _ _ declared with
    | declared numerical => exact .arity [] rfl declared (.declared _) (.inl ⟨few, rfl⟩)
  | many declared many =>
    cases standard _ _ declared with
    | declared numerical => exact .arity [] rfl declared (.declared _) (.inr ⟨many, rfl⟩)
  | branches conditional other =>
    cases standard _ _ conditional with
    | conditional =>
      rcases Nat.lt_or_gt_of_ne other with few | many
      · exact .arity [] rfl conditional .conditional (.inl ⟨few, rfl⟩)
      · exact .arity [] rfl conditional .conditional (.inr ⟨many, rfl⟩)
  | part asks solved refuses =>
    exact .mismatch (refuses.ne_number standard) fun given => (supplies_of_eval standard _ solved given).enclose asks.parts
  | @side left right relation x y value first second other =>
    obtain ⟨_, same, side, refused⟩ := apply_eq_error other
    cases same
    refine .mismatch ?_ fun given => ?_
    · rintro x rfl
      cases refused
    · rcases side with rfl | rfl
      · have asks : Asks scope (comparison left relation right) 0 left := .left
        exact (supplies_of_eval standard left first given).enclose asks.parts
      · exact (supplies_of_eval standard right second given).enclose (Asks.right ⟨_, first⟩).parts
  | body declared admits collected failed =>
    cases standard _ _ declared with
    | declared numerical =>
      obtain ⟨x, solved⟩ := numerical.result _ _
      cases solved.symm.trans failed

theorem accounted_of_eval (standard : scope.Standard) (failed : expr.eval scope = .error error) :
    Accounted scope expr error := by
  obtain ⟨path, target, origin⟩ := exists_origin standard.valued expr failed
  exact (origin.raises.accounted standard).below origin.reached

end Expr

/-- With the functions of the language a failure is never that of an operator or in a function's
own words. A missing variable stands in the formula and has no value; a missing function is
called in it and not registered; a function that got too few or too many arguments is called in
it with so many; and no number is of the wrong kind. A text or `null` that is the value, or that
is of the wrong kind, is written in the formula or is the value of a variable in it. -/
theorem eval_standard_accounted (value? : String → Option Value) (expr : Expr) :
    let scope : Scope := ⟨value?, Registry.standard.find?⟩
    (∀ operator, expr.eval scope ≠ .error (.unsupported operator)) ∧
    (∀ text, expr.eval scope ≠ .error (.failed text)) ∧
    (∀ name, expr.eval scope = .error (.unresolved name) →
      (∃ path, expr.at? path = some (.field name)) ∧ value? name = none) ∧
    (∀ name, expr.eval scope = .error (.undefined name) →
      (∃ path arguments, expr.at? path = some (.call name arguments)) ∧ Registry.standard.contains name = false) ∧
    (∀ name expected, expr.eval scope = .error (.arity name expected) →
      ∃ path arguments function least most, expr.at? path = some (.call name arguments) ∧
        Registry.standard.find? name = some function ∧ function.Takes least most ∧
        ((arguments.length < least ∧ expected = least) ∨ (most < arguments.length ∧ expected = most))) ∧
    (∀ x, expr.eval scope ≠ .error (.mismatch (.number x))) ∧
    ∀ value, value.Given → expr.eval scope = .ok value ∨ expr.eval scope = .error (.mismatch value) →
      expr.Supplies scope value := by
  intro scope
  have standard : scope.Standard := standard_scope value?
  have accounted : ∀ {error}, expr.eval scope = .error error → expr.Accounted scope error := Expr.accounted_of_eval standard
  refine ⟨?_, ?_, ?_, ?_, ?_, ?_, ?_⟩
  · intro operator failed
    cases accounted failed
  · intro text failed
    cases accounted failed
  · intro name failed
    cases accounted failed with
    | unresolved path stands missing => exact ⟨⟨path, stands⟩, missing⟩
  · intro name failed
    cases accounted failed with
    | undefined path stands missing => exact ⟨⟨path, _, stands⟩, Registry.contains_of_find?_eq_none missing⟩
  · intro name expected failed
    cases accounted failed with
    | arity path stands known takes missed => exact ⟨path, _, _, _, _, stands, known, takes, missed⟩
  · intro x failed
    cases accounted failed with
    | mismatch other => exact other x rfl
  · rintro value given (solved | failed)
    · exact Expr.supplies_of_eval standard expr solved given
    · cases accounted failed with
      | mismatch other supplied => exact supplied given

/-- A text that a conditional hands on to a function of doubles is refused, and it is the one of
the branch. -/
theorem eval_standard_accounted_branch :
    let scope : Scope := ⟨fun name => if name = "c" then some (.number 1) else none, Registry.standard.find?⟩
    let formula : Expr := .call "sqrt" [.call "if" [.field "c", .literal (.text "big"), .field "x"]]
    formula.eval scope = .error (.mismatch (.text "big")) ∧ formula.Supplies scope (.text "big") := by
  intro scope formula
  have refused : formula.eval scope = .error (.mismatch (.text "big")) := rfl
  obtain ⟨-, -, -, -, -, -, supplied⟩ := eval_standard_accounted scope.value? formula
  exact ⟨refused, supplied (.text "big") trivial (.inr refused)⟩

end Formula
