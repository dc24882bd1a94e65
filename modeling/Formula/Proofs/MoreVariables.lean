import Formula.Proofs.Catalogue

/-! More variables never change an answer. An evaluation that does not fail for want of a
variable has looked up only names with values, and it is repeated wherever these keep their
values. A variable that it fails for stands in the formula and is not held. -/

namespace Formula

namespace Variables

/-- All entries of one set of variables are entries of another one. -/
def Within (known more : Variables) : Prop :=
  ∀ name value, known.values.get? name = some value → more.values.get? name = some value

variable {known more : Variables} {name : String}

private theorem get?_of_value? {value : Value} (strict : known.missing = .error) (found : known.value? name = some value) :
    known.values.get? name = some value := by
  simp only [value?, strict] at found
  cases held : known.values.get? name with
  | none =>
    rw [held] at found
    cases found
  | some other =>
    rw [held] at found
    exact found

private theorem value?_of_get? {value : Value} (held : known.values.get? name = some value) :
    known.value? name = some value := by
  simp only [value?, held]

theorem contains_of_value?_eq_none (missing : known.value? name = none) : known.contains name = false := by
  rw [contains, Std.TreeMap.contains_eq_isSome_getElem?, ← Std.TreeMap.get?_eq_getElem?]
  cases held : known.values.get? name with
  | none => rfl
  | some value => cases (value?_of_get? held).symm.trans missing

theorem Within.value? {value : Value} (within : known.Within more) (strict : known.missing = .error)
    (found : known.value? name = some value) : more.value? name = some value :=
  value?_of_get? (within name value (get?_of_value? strict found))

theorem within_withMissing (known : Variables) (missing : Missing) : known.Within (known.withMissing missing) :=
  fun _ _ held => held

theorem within_insert (fresh : known.values.get? name = none) (value : Value) : known.Within (known.insert name value) := by
  intro other held present
  rw [insert, Std.TreeMap.get?_eq_getElem?, Std.TreeMap.getElem?_insert, if_neg, ← Std.TreeMap.get?_eq_getElem?, present]
  rw [Std.LawfulEqCmp.compare_eq_iff_eq]
  intro same
  subst same
  cases fresh.symm.trans present

end Variables

namespace Expr

variable {function? : String → Option Function} {known more : Variables}

/-- An evaluation that does not fail for want of a variable is the same among more variables. -/
theorem eval_within (valued : ∀ name, ∀ function ∈ function? name, function.Valued) (strict : known.missing = .error)
    (within : known.Within more) {expr : Expr}
    (resolved : ∀ name, expr.eval ⟨known.value?, function?⟩ ≠ .error (.unresolved name)) :
    expr.eval ⟨more.value?, function?⟩ = expr.eval ⟨known.value?, function?⟩ := by
  have valued : Scope.Valued ⟨known.value?, function?⟩ := valued
  apply eval_of_lookups valued
  intro lookup member
  cases lookup with
  | function name => rfl
  | value name =>
    cases found : known.value? name with
    | none => exact absurd (eval_of_missing_variable valued member found) (resolved name)
    | some value => exact (within.value? strict found).trans found.symm

theorem field_of_unresolved {scope : Scope} (quiet : ∀ name, ∀ function ∈ scope.function? name, function.Quiet)
    {expr : Expr} {name : String} (failed : expr.eval scope = .error (.unresolved name)) :
    (∃ path, expr.at? path = some (.field name)) ∧ scope.value? name = none := by
  have valued : scope.Valued := fun name function found => (quiet name function found).valued
  obtain ⟨path, target, origin⟩ := exists_origin valued expr failed
  have present := origin.reached.at?
  cases origin.raises with
  | unresolved missing => exact ⟨⟨path, present⟩, missing⟩
  | body declared admits collected failed =>
    cases quiet _ _ declared with
    | declared function quiet => exact absurd failed (quiet _ _ name)

end Expr

/-- Among more variables, whatever these answer for missing names, a formula has the same value
or failure unless it failed for want of a variable, and that is one of its own which is not
held. So an answer for missing names changes nothing else. -/
theorem eval_more_variables (expr : Expr) (function? : String → Option Function)
    (quiet : ∀ name, ∀ function ∈ function? name, function.Quiet) (known more : Variables)
    (strict : known.missing = .error) (within : known.Within more) :
    ((∀ name, expr.eval ⟨known.value?, function?⟩ ≠ .error (.unresolved name)) →
      expr.eval ⟨more.value?, function?⟩ = expr.eval ⟨known.value?, function?⟩) ∧
    (∀ name, expr.eval ⟨known.value?, function?⟩ = .error (.unresolved name) →
      (∃ path, expr.at? path = some (.field name)) ∧ known.contains name = false) ∧
    (expr.eval ⟨(known.withMissing .null).value?, function?⟩ ≠ expr.eval ⟨known.value?, function?⟩ →
      ∃ name, expr.eval ⟨known.value?, function?⟩ = .error (.unresolved name)) := by
  have valued : ∀ name, ∀ function ∈ function? name, function.Valued :=
    fun name function found => (quiet name function found).valued
  refine ⟨expr.eval_within valued strict within, ?_, ?_⟩
  · intro name failed
    obtain ⟨present, missing⟩ := expr.field_of_unresolved quiet failed
    exact ⟨present, Variables.contains_of_value?_eq_none missing⟩
  · intro changed
    by_contra unresolved
    apply changed
    apply expr.eval_within valued strict (known.within_withMissing .null)
    intro name failed
    exact unresolved ⟨name, failed⟩

/-- One more price, and null for the rest, does not change what the first price comes to. -/
theorem eval_more_variables_price :
    let formula : Expr := .call "if" [.comparison (.field "price") .greater (.literal (.number 100)), .field "price", .field "cost"]
    let known : Variables := Variables.insert {} "price" (.number 120)
    let more : Variables := (known.insert "cost" (.number 7)).withMissing .null
    known.Within more ∧ formula.eval ⟨more.value?, Registry.standard.find?⟩ = .ok (.number 120) := by
  intro formula known more
  have fresh : known.values.get? "cost" = none := rfl
  have within : known.Within more := Variables.within_insert fresh (.number 7)
  have value : formula.eval ⟨known.value?, Registry.standard.find?⟩ = .ok (.number 120) := rfl
  have same := (eval_more_variables formula Registry.standard.find? (fun _ _ found => (standard_of_find? found).quiet) known more
    rfl within).1
  refine ⟨within, (same ?_).trans value⟩
  intro name failed
  cases value.symm.trans failed

end Formula
