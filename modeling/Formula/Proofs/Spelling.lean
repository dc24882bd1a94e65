import Formula.Proofs.Rendering

/-! The text of a formula is one of the grammar, at the level at which the printer takes it
to hold together. It may mean another formula, as that of the negative zero is read as zero. -/

namespace Formula

open Grammar

/-- All finite numbers, signed if their sign bit is set. -/
def Numbers.finites : Numbers where
  allowed x := x.isFinite = true
  signed x := x.toBits.toBitVec.msb = true
  finite := id
  sign _ := id

/-- What a formula made by hand has to observe for its text to be one of the grammar. -/
abbrev Expr.Spellable (expr : Expr) : Prop := expr.Orderly .finites

/-- Whether the rule of a level derives a text, with blanks between its words only. The levels
0 to 4 are `expr`, `sum`, `product`, `power` and `signed`. -/
def Derivable (level : Nat) (text : String) : Prop :=
  ∃ phrase : Phrase level, Spaced phrase.words text.toList ∧ Trimmed text.toList

/-- The text of a formula is derived at the level of its binding and at every level below,
and at that of sums unless it is a comparison. -/
theorem derivable_text (expr : Expr) (spellable : expr.Spellable) :
    (∀ level ≤ expr.binding, Derivable level expr.text) ∧ (expr.isComparison = false → Derivable 1 expr.text) := by
  obtain ⟨again, rendered⟩ := exists_rendered expr spellable
  have text : expr.text.toList = expr.chars := String.toList_ofList
  have derivable : ∀ {level : Nat}, Written level expr.chars again → Derivable level expr.text := by
    rintro level ⟨phrase, spaced, -⟩
    rw [Derivable, text]
    exact ⟨phrase, spaced, rendered.trimmed⟩
  refine ⟨?_, fun other => derivable (rendered.side other)⟩
  intro level below
  exact derivable (rendered.written.down below)

/-- A product so far that begins with the negative zero is bracketed as the base of a power. -/
theorem derivable_text_power : Derivable 2 "(-0 * (a + 2)) ^ (a < 1)" ∧ Derivable 1 "(-0 * (a + 2)) ^ (a < 1)" := by
  have field : IsName "a".toList := .mk rfl nofun
  have zero : (-0 : Float).isFinite = true := by decide +kernel
  have one : (1 : Float).isFinite = true := by decide
  have two : (2 : Float).isFinite = true := by decide
  obtain ⟨levels, sums⟩ := derivable_text
    (.chain (.literal (.number (-0))) [(.multiply, .chain (.field "a") [(.add, .literal (.number 2))]),
      (.power, .comparison (.field "a") .less (.literal (.number 1)))])
    ⟨nofun, zero, ⟨⟨nofun, field, ⟨two, trivial⟩, nofun⟩, ⟨field, one⟩, trivial⟩, nofun⟩
  exact ⟨levels 2 (by decide), sums rfl⟩

end Formula
