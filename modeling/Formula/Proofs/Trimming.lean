import Formula.Proofs.Bracketing

/-! The printer sets blanks between words only. Each text that it joins to others begins and
ends with a word, and so does what it joins them to. -/

namespace Formula.Grammar

open Formula.Expr

/-- A text without blanks at its ends. -/
structure Trimmed (text : List Char) : Prop where
  begins : ∃ c rest, text = c :: rest ∧ isBlank c = false
  ends : ∃ rest c, text = rest ++ [c] ∧ isBlank c = false

private theorem trimmed_of_clear {text : List Char} (some : text ≠ []) (clear : ∀ c ∈ text, isBlank c = false) :
    Trimmed text where
  begins := by
    obtain ⟨c, rest, rfl⟩ := List.exists_cons_of_ne_nil some
    exact ⟨c, rest, rfl, clear c List.mem_cons_self⟩
  ends := ⟨text.dropLast, text.getLast some, (List.dropLast_append_getLast some).symm, clear _ (List.getLast_mem some)⟩

theorem trimmed_singleton {c : Char} (clear : isBlank c = false) : Trimmed [c] :=
  trimmed_of_clear (List.cons_ne_nil c []) (List.forall_mem_singleton.mpr clear)

theorem Trimmed.between {first last : List Char} (one : Trimmed first) (other : Trimmed last) (middle : List Char) :
    Trimmed (first ++ middle ++ last) where
  begins := by
    obtain ⟨c, rest, rfl, clear⟩ := one.begins
    exact ⟨c, rest ++ middle ++ last, rfl, clear⟩
  ends := by
    obtain ⟨rest, c, rfl, clear⟩ := other.ends
    exact ⟨first ++ middle ++ rest, c, (List.append_assoc _ rest [c]).symm, clear⟩

theorem trimmed_in_brackets (text : List Char) : Trimmed ('(' :: text ++ [')']) :=
  (trimmed_singleton rfl).between (trimmed_singleton rfl) text

theorem Trimmed.bracketed {text : List Char} (trimmed : Trimmed text) (brackets : Bool) : Trimmed (bracketed brackets text) := by
  cases brackets with
  | true => exact trimmed_in_brackets text
  | false => exact trimmed

theorem Trimmed.signed {text : List Char} (trimmed : Trimmed text) (sign : Operator) : Trimmed (sign.symbol :: text) := by
  have clear : isBlank sign.symbol = false := by cases sign <;> rfl
  exact (trimmed_singleton clear).between trimmed []

private theorem trimmed_of_class {class_ : Char → Bool} (outside : [' ', '\t', '\r', '\n'].any class_ = false) {text : List Char}
    (some : text ≠ []) (all : ∀ c ∈ text, class_ c = true) : Trimmed text := by
  apply trimmed_of_clear some
  intro c member
  cases blank : isBlank c with
  | false => rfl
  | true =>
    have mark : c ∈ [' ', '\t', '\r', '\n'] := by simpa [isBlank, or_assoc] using blank
    cases (outside_of_any outside c mark).symm.trans (all c member)

theorem trimmed_name {letters : List Char} (valid : IsName letters) : Trimmed letters := by
  have some : letters ≠ [] := by
    cases valid
    exact List.cons_ne_nil _ _
  exact trimmed_of_class (by decide) some valid.continues

theorem trimmed_number {x : Float} (plain : Doubles.Plain x) : Trimmed (Number.chars x) := by
  obtain ⟨numeral, valid, chars, -⟩ := Doubles.chars_readBack plain
  obtain ⟨c, later, same, -⟩ := valid.begins
  have some : numeral.chars ≠ [] := same ▸ List.cons_ne_nil c later
  exact chars ▸ trimmed_of_class (by decide) some valid.numeric

theorem trimmed_text (content : String) : Trimmed (literalChars (.text content)) := by
  have clear : isBlank (if content.toList.contains '"' then '\'' else '"') = false := by split <;> rfl
  exact (trimmed_singleton clear).between (trimmed_singleton clear) content.toList

/-- The brackets and operators of a chain come with the operands beside them. -/
theorem trimmed_terms {binding : Nat} {text : List Char} (sofar : Trimmed text) (terms : List (Operator × Expr))
    (later : ∀ term ∈ terms, Trimmed term.2.chars) :
    Trimmed (List.replicate (opened binding terms) '(' ++ text ++ termsChars binding terms) := by
  induction terms generalizing binding text with
  | nil => simpa [opened, termsChars] using sofar
  | cons term terms ih =>
    obtain ⟨operator, operand⟩ := term
    obtain ⟨first, later⟩ := List.forall_mem_cons.mp later
    have longer := (sofar.bracketed (binding < operator.precedence)).between
      (first.bracketed (operand.binding ≤ operator.precedence)) [' ', operator.symbol, ' ']
    rw [chars_step]
    refine ih ?_ later
    simpa using longer

end Formula.Grammar
