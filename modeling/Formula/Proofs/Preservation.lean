import Formula.Proofs.Rendering

/-! A formula that was put together by hand keeps its meaning in writing. Its text may be
read as another formula: one that regroups equal operators, brackets what would be regrouped
otherwise, and subtracts negative numbers from zero. Both are evaluated to the same value or
fail alike. -/

namespace Formula

open Grammar

/-- The finite numbers without the negative zero, signed if they are below zero. -/
def Numbers.ordinary : Numbers where
  allowed x := x.isFinite = true ∧ x ≠ -0
  signed x := x < 0
  finite := And.left
  sign := fun ⟨finite, other⟩ => Doubles.lt_zero_of_sign finite other

/-- What a formula made by hand has to observe for its text to keep its meaning. -/
abbrev Expr.Writable (expr : Expr) : Prop := expr.Orderly .ordinary

/-- The text of a formula compiles under every limit that its brackets keep to, and what it
compiles to has the same value or failure in every scope of functions that see values only. -/
theorem exists_compile_text_eval_eq (expr : Expr) (writable : expr.Writable) : ∃ again,
    (∀ limit, bracketNesting expr.text.toList ≤ limit → compile limit expr.text = .ok again) ∧
      ∀ scope : Scope, scope.Valued → again.eval scope = expr.eval scope := by
  obtain ⟨again, rendered⟩ := exists_rendered expr writable
  obtain ⟨phrase, spaced, finite, same⟩ := rendered.written.outer
  have text : expr.text.toList = expr.chars := String.toList_ofList
  rw [← text] at spaced
  refine ⟨again, ?_, rendered.agrees fun _ => And.right⟩
  intro limit within
  have fits : phrase.nesting ≤ limit := by
    rw [← tooDeep?_spaced phrase spaced, tooDeep?_eq_none_iff]
    exact within
  exact compileChars_eq_ok_iff.mpr ⟨phrase, spaced, fits, finite, same⟩

/-- The text brackets the sum and reads its last number as one that is subtracted from zero. -/
theorem exists_compile_text_eval_eq_regrouped : ∃ again, compile 1 "(a + 2) * -3" = .ok again ∧
    again.eval ⟨fun _ => some (.number 1), fun _ => some .conditional⟩ = .ok (.number (-9)) := by
  have field : IsName "a".toList := .mk rfl nofun
  have two : Expr.Writable (.literal (.number 2)) := ⟨by decide, by decide⟩
  have three : Expr.Writable (.literal (.number (-3))) := ⟨by decide, by decide⟩
  have valued : Scope.Valued ⟨fun _ => some (.number 1), fun _ => some .conditional⟩ := by
    intro name function found
    cases found
    exact .conditional
  obtain ⟨again, compiled, agrees⟩ := exists_compile_text_eval_eq
    (.chain (.field "a") [(.add, .literal (.number 2)), (.multiply, .literal (.number (-3)))])
    ⟨nofun, field, ⟨two, three, trivial⟩, nofun⟩
  exact ⟨again, compiled 1 (by decide), (agrees _ valued).trans rfl⟩

end Formula
