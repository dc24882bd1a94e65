import Formula.Proofs.Meaning

/-! The places of a formula that its evaluation comes to. The operands of a chain and the
arguments of a declared function are taken from left to right, each only if the ones before
it are of the kind that their place demands. A comparison wants no more of its left side
than a value, and a conditional goes on from its condition to the branch that it selects. -/

namespace Formula

theorem bind_eq_ok {first : Except ε α} {next : α → Except ε β} {result : β} :
    (first >>= next) = .ok result ↔ ∃ x, first = .ok x ∧ next x = .ok result := by
  cases first <;> simp [bind, Except.bind]

theorem bind_eq_error {first : Except ε α} {next : α → Except ε β} {error : ε} :
    (first >>= next) = .error error ↔ first = .error error ∨ ∃ x, first = .ok x ∧ next x = .error error := by
  cases first <;> simp [bind, Except.bind]

/-- The members of a list that a search comes to which goes on while they pass. -/
inductive ComesTo (passes : α → Prop) : List α → Nat → α → Prop where
  | first {member later} : ComesTo passes (member :: later) 0 member
  | next {earlier later index member} (passed : passes earlier) (comes : ComesTo passes later index member) :
      ComesTo passes (earlier :: later) (index + 1) member

theorem ComesTo.member {passes : α → Prop} {list index member} (comes : ComesTo passes list index member) :
    list[index]? = some member := by
  induction comes with
  | first => rfl
  | next passed comes ih => exact ih

theorem comesTo_of_getElem? {passes : α → Prop} {list index member} (present : list[index]? = some member)
    (passed : ∀ turn < index, ∀ before, list[turn]? = some before → passes before) : ComesTo passes list index member := by
  induction list generalizing index with
  | nil => cases present
  | cons first later ih =>
    cases index with
    | zero =>
      cases present
      exact .first
    | succ index =>
      refine .next (passed 0 (Nat.succ_pos index) first rfl) (ih present ?_)
      intro turn less before here
      exact passed (turn + 1) (Nat.succ_lt_succ less) before here

theorem ComesTo.passed {passes : α → Prop} {list index member earlier before}
    (comes : ComesTo passes list index member) (first : ComesTo passes list earlier before) (less : earlier < index) :
    passes before := by
  induction comes generalizing earlier with
  | first => exact absurd less (Nat.not_lt_zero earlier)
  | next passed comes ih =>
    cases first with
    | first => exact passed
    | next _ first => exact ih first (Nat.lt_of_succ_lt_succ less)

namespace Declared

def kinds (function : Declared) : List Kind := function.required ++ function.optional

/-- Whether a call may have so many arguments. -/
def Admits (function : Declared) (count : Nat) : Prop :=
  function.required.length ≤ count ∧ count ≤ function.kinds.length

instance (function : Declared) (count : Nat) : Decidable (function.Admits count) :=
  inferInstanceAs (Decidable (_ ∧ _))

theorem few_or_many_or_admits (function : Declared) (count : Nat) :
    count < function.required.length ∨ function.kinds.length < count ∨ function.Admits count := by
  rw [Admits]
  omega

theorem call_of_admits {function : Declared} {arguments : List Argument} (admits : function.Admits arguments.length) :
    function.call arguments = (do
      let (values, others) ← function.collect function.required arguments
      function.body.apply values others) := by
  obtain ⟨least, most'⟩ := admits
  rw [kinds, List.length_append] at most'
  rw [call, if_neg (Nat.not_lt.mpr least), if_neg (Nat.not_lt.mpr most')]

theorem call_of_few {function : Declared} {arguments : List Argument}
    (few : arguments.length < function.required.length) :
    function.call arguments = .error (.arity function.name function.required.length) := if_pos few

theorem call_of_many {function : Declared} {arguments : List Argument}
    (many : function.kinds.length < arguments.length) :
    function.call arguments = .error (.arity function.name function.kinds.length) := by
  rw [kinds, List.length_append] at many ⊢
  rw [call, if_neg (by omega), if_pos many]

end Declared

namespace Expr

def parts : Expr → List Expr
  | .literal _ | .field _ => []
  | .chain head terms => head :: terms.map Prod.snd
  | .comparison left _ right => [left, right]
  | .group inner => [inner]
  | .call _ arguments => arguments

/-- What stands at a place, which is told by the number of the part at each level. -/
def at? : Expr → List Nat → Option Expr
  | expr, [] => some expr
  | expr, index :: path =>
    match expr.parts[index]? with
    | some part => part.at? path
    | none => none
termination_by structural _ path => path

theorem at?_cons {expr part : Expr} {index : Nat} (here : expr.parts[index]? = some part) (path : List Nat) :
    expr.at? (index :: path) = part.at? path := by
  simp only [at?, here]

theorem exists_part_of_at? {expr found : Expr} {index : Nat} {path : List Nat} (present : expr.at? (index :: path) = some found) :
    ∃ part, expr.parts[index]? = some part ∧ part.at? path = some found := by
  rw [at?] at present
  cases here : expr.parts[index]? with
  | none =>
    rw [here] at present
    cases present
  | some part =>
    rw [here] at present
    exact ⟨part, rfl, present⟩

private theorem depth_le_termsDepth {terms : List (Operator × Expr)} {operand : Expr} (member : operand ∈ terms.map Prod.snd) :
    operand.depth ≤ termsDepth terms := by
  induction terms with
  | nil => cases member
  | cons term terms ih =>
    rw [termsDepth]
    rcases List.mem_cons.mp member with rfl | member
    · exact Nat.le_max_left _ _
    · exact (ih member).trans (Nat.le_max_right _ _)

private theorem depth_le_argumentsDepth {arguments : List Expr} {argument : Expr} (member : argument ∈ arguments) :
    argument.depth ≤ argumentsDepth arguments := by
  induction arguments with
  | nil => cases member
  | cons first arguments ih =>
    rw [argumentsDepth]
    rcases List.mem_cons.mp member with rfl | member
    · exact Nat.le_max_left _ _
    · exact (ih member).trans (Nat.le_max_right _ _)

theorem depth_lt_of_parts {expr part : Expr} {index : Nat} (here : expr.parts[index]? = some part) :
    part.depth < expr.depth := by
  have member := List.mem_of_getElem? here
  cases expr with
  | literal | field => cases member
  | chain head terms =>
    rw [depth]
    rcases List.mem_cons.mp member with rfl | member
    · omega
    · have bound := depth_le_termsDepth member
      omega
  | comparison left relation right =>
    rw [depth]
    rcases List.mem_pair.mp member with rfl | rfl <;> omega
  | group inner =>
    rw [List.mem_singleton.mp member, depth]
    omega
  | call name arguments =>
    exact Nat.lt_succ_of_le (depth_le_argumentsDepth member)

def Succeeds (scope : Scope) (expr : Expr) : Prop := ∃ value, expr.eval scope = .ok value

def IsNumber (scope : Scope) (expr : Expr) : Prop := ∃ x, expr.number scope = .ok x

def coerced (scope : Scope) (kind : Kind) (expr : Expr) : Except EvalError kind.Carrier := do
  let value ← expr.eval scope
  kind.coerce value

def Fits (scope : Scope) (argument : Kind × Expr) : Prop := ∃ value, argument.2.coerced scope argument.1 = .ok value

theorem IsNumber.value {scope : Scope} {expr : Expr} (number : expr.IsNumber scope) :
    ∃ value x, expr.eval scope = .ok value ∧ value.toNumber = .ok x := by
  obtain ⟨x, number⟩ := number
  obtain ⟨value, solved, number⟩ := bind_eq_ok.mp number
  exact ⟨value, x, solved, number⟩

theorem Fits.value {scope : Scope} {kind : Kind} {expr : Expr} (fits : Fits scope (kind, expr)) :
    ∃ value carried, expr.eval scope = .ok value ∧ kind.coerce value = .ok carried := by
  obtain ⟨carried, fits⟩ := fits
  obtain ⟨value, solved, fits⟩ := bind_eq_ok.mp fits
  exact ⟨value, carried, solved, fits⟩

/-- The evaluation of a formula comes to its part of this number. -/
inductive Asks (scope : Scope) : Expr → Nat → Expr → Prop where
  | operand {head terms index part} (comes : ComesTo (IsNumber scope) (head :: terms.map Prod.snd) index part) :
      Asks scope (.chain head terms) index part
  | left {left relation right} : Asks scope (.comparison left relation right) 0 left
  | right {left relation right} (solved : left.Succeeds scope) : Asks scope (.comparison left relation right) 1 right
  | inner {inner} : Asks scope (.group inner) 0 inner
  | condition {name condition positive negative} (conditional : scope.function? name = some .conditional) :
      Asks scope (.call name [condition, positive, negative]) 0 condition
  | positive {name condition positive negative value} (conditional : scope.function? name = some .conditional)
      (solved : condition.eval scope = .ok value) (holds : value.truthy = true) :
      Asks scope (.call name [condition, positive, negative]) 1 positive
  | negative {name condition positive negative value} (conditional : scope.function? name = some .conditional)
      (solved : condition.eval scope = .ok value) (fails : value.truthy = false) :
      Asks scope (.call name [condition, positive, negative]) 2 negative
  | argument {name function arguments index kind part} (declared : scope.function? name = some (.declared function))
      (admits : function.Admits arguments.length)
      (comes : ComesTo (Fits scope) (function.kinds.zip arguments) index (kind, part)) :
      Asks scope (.call name arguments) index part

/-- The evaluation of a formula comes to what stands at a place. -/
inductive Reached (scope : Scope) : Expr → List Nat → Expr → Prop where
  | root (expr : Expr) : Reached scope expr [] expr
  | part {expr index part path target} (asks : Asks scope expr index part) (below : Reached scope part path target) :
      Reached scope expr (index :: path) target

/-- The value of a part is of another kind than its place demands. -/
inductive Refuses (scope : Scope) : Expr → Nat → Value → Prop where
  | operand {head terms index value} (other : value.toNumber = .error (.mismatch value)) :
      Refuses scope (.chain head terms) index value
  | argument {name function arguments index kind value} (declared : scope.function? name = some (.declared function))
      (place : function.kinds[index]? = some kind) (other : kind.coerce value = .error (.mismatch value)) :
      Refuses scope (.call name arguments) index value

variable {scope : Scope} {expr part : Expr} {index : Nat}

theorem Asks.parts (asks : Asks scope expr index part) : expr.parts[index]? = some part := by
  cases asks with
  | operand comes => exact comes.member
  | left | right | inner | condition | positive | negative => rfl
  | argument declared admits comes => exact (List.getElem?_zip_eq_some.mp comes.member).2

theorem Asks.depth_lt (asks : Asks scope expr index part) : part.depth < expr.depth := depth_lt_of_parts asks.parts

theorem Asks.unique {other : Expr} (asks : Asks scope expr index part) (again : Asks scope expr index other) :
    other = part := Option.some.inj (again.parts.symm.trans asks.parts)

variable {name : String} {arguments : List Expr}

theorem Asks.called (asks : Asks scope (.call name arguments) index part) :
    (scope.function? name = some .conditional ∧ arguments.length = 3) ∨
      ∃ function, scope.function? name = some (.declared function) ∧ function.Admits arguments.length := by
  cases asks with
  | condition conditional | positive conditional | negative conditional => exact .inl ⟨conditional, rfl⟩
  | argument declared admits comes => exact .inr ⟨_, declared, admits⟩

theorem Asks.known (asks : Asks scope (.call name arguments) index part) : scope.function? name ≠ none := by
  intro missing
  rcases asks.called with ⟨conditional, -⟩ | ⟨function, declared, -⟩
  · cases missing.symm.trans conditional
  · cases missing.symm.trans declared

theorem Asks.admits {function : Declared} (asks : Asks scope (.call name arguments) index part)
    (declared : scope.function? name = some (.declared function)) : function.Admits arguments.length := by
  rcases asks.called with ⟨conditional, -⟩ | ⟨other, declared', admits⟩
  · cases declared.symm.trans conditional
  · cases declared.symm.trans declared'
    exact admits

theorem Asks.three (asks : Asks scope (.call name arguments) index part)
    (conditional : scope.function? name = some .conditional) : arguments.length = 3 := by
  rcases asks.called with ⟨-, three⟩ | ⟨function, declared, -⟩
  · exact three
  · cases conditional.symm.trans declared

private theorem not_refuses_of_conditional {value : Value} (conditional : scope.function? name = some .conditional) :
    ¬ Refuses scope (.call name arguments) index value := by
  intro refuses
  cases refuses with
  | argument declared => cases conditional.symm.trans declared

/-- A part before another one that the evaluation comes to has a value of the right kind. -/
theorem Asks.passed {earlier : Nat} {before : Expr} (asks : Asks scope expr index part)
    (first : Asks scope expr earlier before) (less : earlier < index) :
    ∃ value, before.eval scope = .ok value ∧ ¬ Refuses scope expr earlier value := by
  cases asks with
  | operand comes =>
    cases first with
    | operand first =>
      obtain ⟨value, x, solved, number⟩ := (comes.passed first less).value
      refine ⟨value, solved, ?_⟩
      intro refuses
      cases refuses with
      | operand other => cases number.symm.trans other
  | left | inner | condition => exact absurd less (Nat.not_lt_zero earlier)
  | right solved =>
    cases first with
    | left =>
      obtain ⟨value, solved⟩ := solved
      exact ⟨value, solved, nofun⟩
    | right => exact absurd less (Nat.lt_irrefl 1)
  | positive conditional solved holds =>
    cases first with
    | condition => exact ⟨_, solved, not_refuses_of_conditional conditional⟩
    | positive | negative => omega
    | argument declared => cases conditional.symm.trans declared
  | negative conditional solved fails =>
    cases first with
    | condition => exact ⟨_, solved, not_refuses_of_conditional conditional⟩
    | positive _ solved' holds =>
      obtain rfl := Except.ok.inj (solved.symm.trans solved')
      cases fails.symm.trans holds
    | negative => omega
    | argument declared => cases conditional.symm.trans declared
  | argument declared admits comes =>
    cases first with
    | condition conditional | positive conditional | negative conditional => cases conditional.symm.trans declared
    | argument declared' admits' first =>
      cases declared.symm.trans declared'
      obtain ⟨value, carried, solved, fits⟩ := (comes.passed first less).value
      refine ⟨value, solved, ?_⟩
      intro refuses
      cases refuses with
      | argument declared' place other =>
        cases declared.symm.trans declared'
        cases (List.getElem?_zip_eq_some.mp first.member).1.symm.trans place
        cases fits.symm.trans other

theorem Reached.at? {path : List Nat} {target : Expr} (reached : Reached scope expr path target) :
    expr.at? path = some target := by
  induction reached with
  | root expr => rfl
  | part asks below ih => rw [at?_cons asks.parts, ih]

end Expr

end Formula
