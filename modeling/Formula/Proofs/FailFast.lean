import Formula.Function.Builtin
import Formula.Proofs.Sequences

/-! The first failure is the failure of the whole. A part that the evaluation comes to and
that fails ends it, and a failure is either that of such a part or raised where it stands. The
value of a formula hangs on nothing but the parts that the evaluation comes to. -/

namespace Formula

theorem Function.choose_of_length {arguments : List Argument} (other : arguments.length ≠ 3) :
    choose arguments = .error (.arity "if" 3) := by
  match arguments with
  | [] | [_] | [_, _] | _ :: _ :: _ :: _ :: _ => rfl
  | [_, _, _] => exact absurd rfl other

namespace Expr

variable {scope : Scope} {expr part : Expr} {index : Nat} {error : EvalError}

theorem length_evalArguments (scope : Scope) (arguments : List Expr) :
    (evalArguments scope arguments).length = arguments.length := by
  induction arguments with
  | nil => rfl
  | cons argument arguments ih => simp only [evalArguments_cons, List.length_cons, ih]

theorem eval_call_declared {name : String} {function : Declared} {arguments : List Expr}
    (declared : scope.function? name = some (.declared function)) :
    (call name arguments).eval scope = function.call (evalArguments scope arguments) := by
  simp only [eval_call, declared, Function.call_declared]

theorem eval_call_few {name : String} {function : Declared} {arguments : List Expr}
    (declared : scope.function? name = some (.declared function)) (few : arguments.length < function.required.length) :
    (call name arguments).eval scope = .error (.arity function.name function.required.length) := by
  rw [eval_call_declared declared, Declared.call_of_few (by rwa [length_evalArguments])]

theorem eval_call_many {name : String} {function : Declared} {arguments : List Expr}
    (declared : scope.function? name = some (.declared function)) (many : function.kinds.length < arguments.length) :
    (call name arguments).eval scope = .error (.arity function.name function.kinds.length) := by
  rw [eval_call_declared declared, Declared.call_of_many (by rwa [length_evalArguments])]

theorem eval_call_conditional {name : String} {arguments : List Expr} (conditional : scope.function? name = some .conditional) :
    (call name arguments).eval scope = Function.choose (evalArguments scope arguments) := by
  simp only [eval_call, conditional, Function.call_conditional]

theorem eval_call_admits {name : String} {function : Declared} {arguments : List Expr}
    (declared : scope.function? name = some (.declared function)) (admits : function.Admits arguments.length) :
    (call name arguments).eval scope = (do
      let (values, others) ← function.collect function.required (evalArguments scope arguments)
      function.body.apply values others) := by
  rw [← length_evalArguments scope] at admits
  rw [eval_call_declared declared, Declared.call_of_admits admits]

theorem eval_call_three {name : String} {condition positive negative : Expr}
    (conditional : scope.function? name = some .conditional) :
    (call name [condition, positive, negative]).eval scope = (do
      let value ← condition.eval scope
      if value.truthy then positive.eval scope else negative.eval scope) := eval_call_conditional conditional

theorem eval_call_branches {name : String} {arguments : List Expr} (conditional : scope.function? name = some .conditional)
    (other : arguments.length ≠ 3) : (call name arguments).eval scope = .error (.arity "if" 3) := by
  rw [eval_call_conditional conditional, Function.choose_of_length (by rwa [length_evalArguments])]

theorem Asks.eval_of_error (asks : Asks scope expr index part) (failed : part.eval scope = .error error) :
    expr.eval scope = .error error := by
  cases asks with
  | operand comes =>
    rw [eval_chain, bind_eq_error]
    cases comes with
    | first => exact .inl (number_of_error failed)
    | next passed comes =>
      obtain ⟨x, passed⟩ := passed
      have failed := evalTerms_of_error comes (number_of_error failed) x
      exact .inr ⟨x, passed, bind_eq_error.mpr (.inl failed)⟩
  | left => exact bind_eq_error.mpr (.inl failed)
  | right solved =>
    obtain ⟨value, solved⟩ := solved
    exact bind_eq_error.mpr (.inr ⟨value, solved, bind_eq_error.mpr (.inl failed)⟩)
  | inner => exact failed
  | condition conditional =>
    rw [eval_call_three conditional]
    exact bind_eq_error.mpr (.inl failed)
  | positive conditional solved holds =>
    rw [eval_call_three conditional]
    exact bind_eq_error.mpr (.inr ⟨_, solved, (if_pos holds).trans failed⟩)
  | negative conditional solved fails =>
    rw [eval_call_three conditional]
    exact bind_eq_error.mpr (.inr ⟨_, solved, (if_neg (Bool.eq_false_iff.mp fails)).trans failed⟩)
  | argument declared admits comes =>
    rw [eval_call_admits declared admits]
    exact bind_eq_error.mpr (.inl (collect_of_error _ comes (coerced_of_error _ failed)))

/-- A failure at any place that the evaluation comes to is the failure of the whole. -/
theorem Reached.eval_of_error {path : List Nat} {target : Expr} (reached : Reached scope expr path target)
    (failed : target.eval scope = .error error) : expr.eval scope = .error error := by
  induction reached with
  | root expr => exact failed
  | part asks below ih => exact asks.eval_of_error (ih failed)

/-- The causes of a failure that a formula has of itself, its parts having values. -/
inductive Raises (scope : Scope) : Expr → EvalError → Prop where
  | unresolved {name} (missing : scope.value? name = none) : Raises scope (.field name) (.unresolved name)
  | undefined {name arguments} (missing : scope.function? name = none) :
      Raises scope (.call name arguments) (.undefined name)
  | few {name function arguments} (declared : scope.function? name = some (.declared function))
      (few : arguments.length < function.required.length) :
      Raises scope (.call name arguments) (.arity function.name function.required.length)
  | many {name function arguments} (declared : scope.function? name = some (.declared function))
      (many : function.kinds.length < arguments.length) :
      Raises scope (.call name arguments) (.arity function.name function.kinds.length)
  | branches {name arguments} (conditional : scope.function? name = some .conditional)
      (other : arguments.length ≠ 3) : Raises scope (.call name arguments) (.arity "if" 3)
  | part {expr index part value} (asks : Asks scope expr index part) (solved : part.eval scope = .ok value)
      (refuses : Refuses scope expr index value) : Raises scope expr (.mismatch value)
  | side {left right relation x y value} (first : left.eval scope = .ok x) (second : right.eval scope = .ok y)
      (other : relation.apply x y = .error (.mismatch value)) :
      Raises scope (.comparison left relation right) (.mismatch value)
  | body {name function arguments values others error} (declared : scope.function? name = some (.declared function))
      (admits : function.Admits arguments.length)
      (collected : function.collect function.required (evalArguments scope arguments) = .ok (values, others))
      (failed : function.body.apply values others = .error error) : Raises scope (.call name arguments) error

theorem apply_eq_error {relation : Relation} {x y : Value} (failed : relation.apply x y = .error error) :
    ∃ value, error = .mismatch value ∧ (value = x ∨ value = y) ∧ value.toNumber = .error (.mismatch value) := by
  have refused : ∀ {value : Value}, value.toNumber = .error error →
      error = .mismatch value ∧ value.toNumber = .error (.mismatch value) := by
    intro value failed
    obtain rfl := Value.toNumber_eq_error failed
    exact ⟨rfl, failed⟩
  cases relation with
  | less | greater | atMost | atLeast =>
    rcases bind_eq_error.mp failed with failed | ⟨a, -, failed⟩
    · exact ⟨x, (refused failed).1, .inl rfl, (refused failed).2⟩
    · rcases bind_eq_error.mp failed with failed | ⟨b, -, failed⟩
      · exact ⟨y, (refused failed).1, .inr rfl, (refused failed).2⟩
      · cases failed
  | equal | unequal => cases failed

def Blames (scope : Scope) (expr : Expr) (error : EvalError) : Prop :=
  Raises scope expr error ∨ ∃ index part, Asks scope expr index part ∧ part.eval scope = .error error

private theorem blames_chain {head : Expr} {terms : List (Operator × Expr)}
    (failed : (chain head terms).eval scope = .error error) :
    Blames scope (chain head terms) error := by
  have comes : ∃ index operand, ComesTo (IsNumber scope) (head :: terms.map Prod.snd) index operand ∧
      operand.number scope = .error error := by
    rw [eval_chain, bind_eq_error] at failed
    rcases failed with failed | ⟨x, number, failed⟩
    · exact ⟨0, head, .first, failed⟩
    · rcases bind_eq_error.mp failed with failed | ⟨y, -, failed⟩
      · obtain ⟨index, operand, comes, failed⟩ := evalTerms_eq_error failed
        exact ⟨index + 1, operand, .next ⟨x, number⟩ comes, failed⟩
      · cases failed
  obtain ⟨index, operand, comes, failed⟩ := comes
  rcases number_eq_error failed with failed | ⟨value, solved, rfl, other⟩
  · exact .inr ⟨index, operand, .operand comes, failed⟩
  · exact .inl (.part (.operand comes) solved (.operand other))

private theorem blames_comparison {left right : Expr} {relation : Relation}
    (failed : (comparison left relation right).eval scope = .error error) :
    Blames scope (comparison left relation right) error := by
  rcases bind_eq_error.mp failed with failed | ⟨x, first, failed⟩
  · exact .inr ⟨0, left, .left, failed⟩
  rcases bind_eq_error.mp failed with failed | ⟨y, second, failed⟩
  · exact .inr ⟨1, right, .right ⟨x, first⟩, failed⟩
  rcases bind_eq_error.mp failed with failed | ⟨holds, -, failed⟩
  · obtain ⟨value, rfl, -⟩ := apply_eq_error failed
    exact .inl (.side first second failed)
  · cases failed

private theorem blames_declared {name : String} {function : Declared} {arguments : List Expr}
    (declared : scope.function? name = some (.declared function))
    (failed : (call name arguments).eval scope = .error error) : Blames scope (call name arguments) error := by
  rcases function.few_or_many_or_admits arguments.length with few | many | admits
  · cases (eval_call_few declared few).symm.trans failed
    exact .inl (.few declared few)
  · cases (eval_call_many declared many).symm.trans failed
    exact .inl (.many declared many)
  rw [eval_call_admits declared admits] at failed
  rcases bind_eq_error.mp failed with failed | ⟨⟨values, others⟩, collected, failed⟩
  · obtain ⟨index, kind, argument, comes, failed⟩ := collect_eq_error function admits.1 failed
    have asks : Asks scope (call name arguments) index argument := .argument declared admits comes
    rcases coerced_eq_error failed with failed | ⟨value, solved, rfl, other⟩
    · exact .inr ⟨index, argument, asks, failed⟩
    · have place := (List.getElem?_zip_eq_some.mp comes.member).1
      exact .inl (.part asks solved (.argument declared place other))
  · exact .inl (.body declared admits collected failed)

private theorem blames_conditional {name : String} {arguments : List Expr}
    (conditional : scope.function? name = some .conditional)
    (failed : (call name arguments).eval scope = .error error) : Blames scope (call name arguments) error := by
  by_cases three : arguments.length = 3
  · obtain ⟨condition, positive, negative, rfl⟩ := List.length_eq_three.mp three
    rw [eval_call_three conditional] at failed
    rcases bind_eq_error.mp failed with failed | ⟨value, solved, failed⟩
    · exact .inr ⟨0, condition, .condition conditional, failed⟩
    cases holds : value.truthy with
    | true =>
      rw [if_pos holds] at failed
      exact .inr ⟨1, positive, .positive conditional solved holds, failed⟩
    | false =>
      rw [if_neg (Bool.eq_false_iff.mp holds)] at failed
      exact .inr ⟨2, negative, .negative conditional solved holds, failed⟩
  · cases (eval_call_branches conditional three).symm.trans failed
    exact .inl (.branches conditional three)

theorem blames (valued : scope.Valued) (failed : expr.eval scope = .error error) : Blames scope expr error := by
  cases expr with
  | literal value => cases failed
  | field name =>
    simp only [eval_field] at failed
    cases found : scope.value? name with
    | some value =>
      rw [found] at failed
      cases failed
    | none =>
      rw [found] at failed
      cases failed
      exact .inl (.unresolved found)
  | chain head terms => exact blames_chain failed
  | comparison left relation right => exact blames_comparison failed
  | group inner => exact .inr ⟨0, inner, .inner, failed⟩
  | call name arguments =>
    cases found : scope.function? name with
    | none =>
      simp only [eval_call, found] at failed
      cases failed
      exact .inl (.undefined found)
    | some function =>
      cases valued name function found with
      | declared function => exact blames_declared found failed
      | conditional => exact blames_conditional found failed

/-- A formula raises a failure only after all the parts that it asks for have values. -/
theorem Raises.succeeds (raises : Raises scope expr error) (asks : Asks scope expr index part) : part.Succeeds scope := by
  cases raises with
  | unresolved missing => cases asks
  | undefined missing => exact absurd missing asks.known
  | few declared few => exact absurd few (Nat.not_lt.mpr (asks.admits declared).1)
  | many declared many => exact absurd many (Nat.not_lt.mpr (asks.admits declared).2)
  | branches conditional other => exact absurd (asks.three conditional) other
  | @part _ blamed _ value stops solved refuses =>
    rcases Nat.lt_trichotomy index blamed with less | rfl | more
    · obtain ⟨value, solved, -⟩ := stops.passed asks less
      exact ⟨value, solved⟩
    · obtain rfl := stops.unique asks
      exact ⟨value, solved⟩
    · obtain ⟨value', solved', passes⟩ := asks.passed stops more
      obtain rfl := Except.ok.inj (solved.symm.trans solved')
      exact absurd refuses passes
  | side first second other =>
    cases asks with
    | left => exact ⟨_, first⟩
    | right => exact ⟨_, second⟩
  | body declared admits collected failed =>
    cases asks with
    | condition conditional | positive conditional | negative conditional => cases declared.symm.trans conditional
    | @argument _ _ _ _ kind _ declared' _ comes =>
      cases declared.symm.trans declared'
      cases solved : part.eval scope with
      | ok value => exact ⟨value, solved⟩
      | error error => cases (collect_of_error _ comes (coerced_of_error kind solved)).symm.trans collected

/-- Of the parts that a formula asks for at most one fails. -/
theorem Asks.succeeds {other : Nat} {beside : Expr} (asks : Asks scope expr index part) (failed : part.eval scope = .error error)
    (asks' : Asks scope expr other beside) (different : other ≠ index) : beside.Succeeds scope := by
  rcases Nat.lt_or_gt_of_ne different with less | more
  · obtain ⟨value, solved, -⟩ := asks.passed asks' less
    exact ⟨value, solved⟩
  · obtain ⟨value, solved, -⟩ := asks'.passed asks more
    cases failed.symm.trans solved

/-- Wherever the evaluation of a formula with a value comes to there is a value. -/
theorem Reached.succeeds {path : List Nat} {target : Expr} (reached : Reached scope expr path target)
    (succeeds : expr.Succeeds scope) : target.Succeeds scope := by
  cases solved : target.eval scope with
  | ok value => exact ⟨value, solved⟩
  | error error =>
    obtain ⟨value, succeeds⟩ := succeeds
    cases (reached.eval_of_error solved).symm.trans succeeds

/-- A place where a failure is raised; of the other places that the evaluation comes to only
those around it fail. -/
structure Origin (scope : Scope) (expr : Expr) (error : EvalError) (path : List Nat) (target : Expr) : Prop where
  reached : Reached scope expr path target
  failed : target.eval scope = .error error
  raises : Raises scope target error
  succeeds : ∀ place other, Reached scope expr place other → ¬ place <+: path → other.Succeeds scope

theorem Raises.origin (raises : Raises scope expr error) (failed : expr.eval scope = .error error) :
    Origin scope expr error [] expr where
  reached := .root expr
  failed := failed
  raises := raises
  succeeds := by
    intro place other reached away
    cases reached with
    | root => exact absurd List.nil_prefix away
    | part asks below => exact below.succeeds (raises.succeeds asks)

theorem Origin.enclose {path : List Nat} {target : Expr} (origin : Origin scope part error path target)
    (asks : Asks scope expr index part) (failed : part.eval scope = .error error) :
    Origin scope expr error (index :: path) target where
  reached := .part asks origin.reached
  failed := origin.failed
  raises := origin.raises
  succeeds := by
    intro place other reached away
    cases reached with
    | root => exact absurd List.nil_prefix away
    | @part _ turn beside place _ asks' below =>
      by_cases same : turn = index
      · subst same
        obtain rfl := asks.unique asks'
        apply origin.succeeds place other below
        intro inside
        exact away (List.cons_prefix_cons.mpr ⟨rfl, inside⟩)
      · exact below.succeeds (asks.succeeds failed asks' same)

/-- Every failure has an origin: it is followed down the parts until one raises it. -/
theorem exists_origin (valued : scope.Valued) (expr : Expr) (failed : expr.eval scope = .error error) :
    ∃ path target, Origin scope expr error path target := by
  rcases blames valued failed with raises | ⟨index, part, asks, failed'⟩
  · exact ⟨[], expr, raises.origin failed⟩
  · have smaller := asks.depth_lt
    obtain ⟨path, target, origin⟩ := exists_origin valued part failed'
    exact ⟨index :: path, target, origin.enclose asks failed'⟩
termination_by expr.depth

/-- Two formulas of the same sort, up to their parts. Of a chain only so much counts as the
evaluation of the first comes to. -/
inductive Resembles (scope : Scope) : Expr → Expr → Prop where
  | literal (value) : Resembles scope (.literal value) (.literal value)
  | field (name) : Resembles scope (.field name) (.field name)
  | chain {head other terms others} (operators : head.IsNumber scope → SameOperators scope terms others) :
      Resembles scope (.chain head terms) (.chain other others)
  | comparison {left left' right right'} (relation) :
      Resembles scope (.comparison left relation right) (.comparison left' relation right')
  | group {inner other} : Resembles scope (.group inner) (.group other)
  | call {arguments others} (name) (count : others.length = arguments.length) :
      Resembles scope (.call name arguments) (.call name others)

theorem Resembles.eval_eq {other : Expr} (resembles : Resembles scope expr other) (valued : scope.Valued)
    (replaced : ∀ index part, Asks scope expr index part → Replaced scope other.parts index part) :
    other.eval scope = expr.eval scope := by
  cases resembles with
  | literal | field => rfl
  | @chain head other terms others operators =>
    have first : other.number scope = head.number scope := by
      simp only [Expr.number, (replaced 0 head (.operand .first)).first]
    rw [eval_chain, eval_chain, first]
    cases number : head.number scope with
    | error error => rfl
    | ok x =>
      have later := evalTerms_replaced (operators ⟨x, number⟩) (fun index operand comes =>
        replaced (index + 1) operand (.operand (.next ⟨x, number⟩ comes))) x
      exact congrArg (· >>= fun result => pure (Value.number result)) later
  | @comparison left left' right right' relation =>
    have first : left'.eval scope = left.eval scope := (replaced 0 left .left).first
    simp only [eval_comparison, first]
    cases solved : left.eval scope with
    | error error => rfl
    | ok value =>
      obtain ⟨found, here, second⟩ := replaced 1 right (.right ⟨value, solved⟩)
      cases here
      rw [second]
  | group => exact (replaced 0 _ .inner).first
  | @call arguments others name count =>
    cases found : scope.function? name with
    | none => simp only [eval_call, found]
    | some function =>
      cases valued name function found with
      | declared function =>
        rcases function.few_or_many_or_admits arguments.length with few | many | admits
        · rw [eval_call_few found few, eval_call_few found (count ▸ few)]
        · rw [eval_call_many found many, eval_call_many found (count ▸ many)]
        have collected : function.collect function.required (evalArguments scope others) =
            function.collect function.required (evalArguments scope arguments) :=
          collect_replaced function count fun index kind argument comes =>
            replaced index argument (.argument found admits comes)
        rw [eval_call_admits found admits, eval_call_admits found (count ▸ admits), collected]
      | conditional =>
        by_cases three : arguments.length = 3
        · obtain ⟨condition, positive, negative, rfl⟩ := List.length_eq_three.mp three
          obtain ⟨condition', positive', negative', rfl⟩ := List.length_eq_three.mp count
          have first : condition'.eval scope = condition.eval scope := (replaced 0 condition (.condition found)).first
          rw [eval_call_three found, eval_call_three found, first]
          cases solved : condition.eval scope with
          | error error => rfl
          | ok value =>
            cases holds : value.truthy with
            | true =>
              obtain ⟨_, here, same⟩ := replaced 1 positive (.positive found solved holds)
              cases here
              exact (if_pos holds).trans (same.trans (if_pos holds).symm)
            | false =>
              obtain ⟨_, here, same⟩ := replaced 2 negative (.negative found solved holds)
              cases here
              have fails := Bool.eq_false_iff.mp holds
              exact (if_neg fails).trans (same.trans (if_neg fails).symm)
        · rw [eval_call_branches found three, eval_call_branches found (count ▸ three)]

/-- A formula stands in another one at all places that its evaluation comes to. Elsewhere the
other one may hold anything. -/
def StandsIn (scope : Scope) (expr other : Expr) : Prop :=
  ∀ path target, Reached scope expr path target → ∃ found, other.at? path = some found ∧ Resembles scope target found

theorem StandsIn.inside {other : Expr} (stands : StandsIn scope expr other) (asks : Asks scope expr index part) :
    ∃ found, other.parts[index]? = some found ∧ StandsIn scope part found := by
  obtain ⟨_, present, -⟩ := stands [index] part (.part asks (.root part))
  obtain ⟨found, here, -⟩ := exists_part_of_at? present
  refine ⟨found, here, ?_⟩
  intro path target reached
  obtain ⟨target', present, resembles⟩ := stands (index :: path) target (.part asks reached)
  rw [at?_cons here] at present
  exact ⟨target', present, resembles⟩

/-- What the evaluation does not come to has no weight. -/
theorem StandsIn.eval_eq (valued : scope.Valued) {expr other : Expr} (stands : StandsIn scope expr other) :
    other.eval scope = expr.eval scope := by
  obtain ⟨_, root, resembles⟩ := stands [] expr (.root expr)
  cases root
  refine resembles.eval_eq valued ?_
  intro index part asks
  obtain ⟨found, here, inside⟩ := stands.inside asks
  have smaller := asks.depth_lt
  exact ⟨found, here, inside.eval_eq valued⟩
termination_by expr.depth

/-- A failure at a place that the evaluation comes to is the failure of the whole, whatever
stands where the evaluation does not come to; and every failure has a place where it is raised,
after all else that the evaluation comes to but does not end in has a value. -/
theorem eval_first_failure (expr : Expr) (scope : Scope) (valued : scope.Valued) :
    (∀ path target error, Reached scope expr path target → target.eval scope = .error error →
      expr.eval scope = .error error ∧ ∀ other, StandsIn scope expr other → other.eval scope = .error error) ∧
    ∀ error, expr.eval scope = .error error → ∃ path target, Origin scope expr error path target := by
  refine ⟨?_, fun error => exists_origin valued expr⟩
  intro path target error reached failed
  have whole := reached.eval_of_error failed
  exact ⟨whole, fun other stands => (stands.eval_eq valued).trans whole⟩

/-- The failure of an argument, past a conditional with a name in its other branch that has no
value either. -/
theorem eval_first_failure_argument :
    let scope : Scope := ⟨fun name => if name = "a" then some (.number 0) else none,
      fun name => if name = "if" then some .conditional else some (.declared .root)⟩
    let formula : Expr := .chain (.call "if" [.field "a", .field "x", .literal (.number 1)])
      [(.multiply, .call "sqrt" [.field "b"]), (.add, .field "c")]
    scope.Valued ∧ formula.eval scope = .error (.unresolved "b") ∧
      ∃ path target, Origin scope formula (.unresolved "b") path target := by
  intro scope formula
  have valued : scope.Valued := by
    intro name function found
    by_cases conditional : name = "if"
    · cases (if_pos conditional).symm.trans found
      exact .conditional
    · cases (if_neg conditional).symm.trans found
      exact .declared .root
  have reached : Reached scope formula [1, 0] (.field "b") :=
    .part (.operand (.next ⟨1, rfl⟩ .first)) (.part (.argument rfl (by decide) .first) (.root _))
  obtain ⟨fails, origin⟩ := eval_first_failure formula scope valued
  have failed := (fails [1, 0] (.field "b") (.unresolved "b") reached rfl).1
  exact ⟨valued, failed, origin (.unresolved "b") failed⟩

end Expr

end Formula
