import Formula.Proofs.RoundTrip

/-! The formulas that texts compile to. Each level of the grammar makes formulas of one shape
from those of the level above it, and collapses to them when it has one operand only. No other
formula is compiled from any text, and each of these is, under every limit that it keeps to. -/

namespace Formula

open Grammar

/-- The formulas of a level: whole formulas at 0, sums, products and powers at 1 to 3, which
are the precedences of their operators, signed operands at 4, and atoms at 5. -/
inductive Expr.Canonical : Nat → Expr → Prop where
  | number {x : Float} (finite : x.isFinite = true) (unsigned : x.toBits.toBitVec.msb = false) :
      Canonical 5 (.literal (.number x))
  /-- A string that one of the two quotes can stand around. -/
  | text {content : String} (quotable : ¬ ('"' ∈ content.toList ∧ '\'' ∈ content.toList)) :
      Canonical 5 (.literal (.text content))
  | field {name : String} (valid : IsName name.toList) : Canonical 5 (.field name)
  | group {inner : Expr} (whole : Canonical 0 inner) : Canonical 5 (.group inner)
  | call {name : String} {arguments : List Expr} (valid : IsName name.toList)
      (each : ∀ argument ∈ arguments, Canonical 0 argument) : Canonical 5 (.call name arguments)
  | unsigned {atom : Expr} (canonical : Canonical 5 atom) : Canonical 4 atom
  | signed {sign : Operator} {atom : Expr} (isSign : sign = .add ∨ sign = .subtract) (canonical : Canonical 5 atom) :
      Canonical 4 (.chain (.literal (.number 0)) [(sign, atom)])
  | alone {level : Nat} {operand : Expr} (tier : IsTier level) (canonical : Canonical (level + 1) operand) :
      Canonical level operand
  | chain {level : Nat} {head : Expr} {terms : List (Operator × Expr)} (tier : IsTier level)
      (first : Canonical (level + 1) head) (some : terms ≠ [])
      (precedences : ∀ term ∈ terms, term.1.precedence = level)
      (operands : ∀ term ∈ terms, Canonical (level + 1) term.2) : Canonical level (.chain head terms)
  | sum {expr : Expr} (canonical : Canonical 1 expr) : Canonical 0 expr
  | comparison {left right : Expr} {relation : Relation} (first : Canonical 1 left) (second : Canonical 1 right) :
      Canonical 0 (.comparison left relation right)

mutual
/-- What no part of a formula from a text is: an empty chain or one of several precedences, a
literal that is null, a truth value, negative or not finite, or a comparison without brackets
in a chain or a comparison. -/
def Expr.Regular : Expr → Prop
  | .literal (.number x) => x.isFinite = true ∧ ¬ x < 0
  | .literal (.text _) => True
  | .literal (.boolean _) | .literal .null => False
  | .field _ => True
  | .chain head terms => terms ≠ [] ∧ (∃ level, ∀ term ∈ terms, term.1.precedence = level) ∧
      head.isComparison = false ∧ (∀ term ∈ terms, term.2.isComparison = false) ∧ head.Regular ∧ termsRegular terms
  | .comparison left _ right => left.isComparison = false ∧ right.isComparison = false ∧ left.Regular ∧ right.Regular
  | .group inner => inner.Regular
  | .call _ arguments => argumentsRegular arguments
termination_by structural expr => expr

def termsRegular : List (Operator × Expr) → Prop
  | [] => True
  | (_, operand) :: terms => operand.Regular ∧ termsRegular terms
termination_by structural terms => terms

def argumentsRegular : List Expr → Prop
  | [] => True
  | argument :: arguments => argument.Regular ∧ argumentsRegular arguments
termination_by structural arguments => arguments
end

namespace Grammar

open Formula.Expr

theorem canonical_signed {sign : Option Operator} (valid : ∀ operator ∈ sign, operator.isSign = true) {atom : Expr}
    (canonical : atom.Canonical 5) : (Expr.signed sign atom).Canonical 4 := by
  cases sign with
  | none => exact .unsigned canonical
  | some sign =>
    have isSign : sign.isSign = true := valid sign rfl
    refine .signed ?_ canonical
    cases sign with
    | add => exact .inl rfl
    | subtract => exact .inr rfl
    | multiply | divide | modulo | power => cases isSign

private theorem canonical_joined {level : Nat} (tier : IsTier level) {head : Expr} (first : head.Canonical (level + 1))
    {terms : List (Operator × Expr)} (precedences : ∀ term ∈ terms, term.1.precedence = level)
    (operands : ∀ term ∈ terms, term.2.Canonical (level + 1)) : (joined head terms).Canonical level := by
  cases terms with
  | nil => exact .alone tier first
  | cons term terms => exact .chain tier first (List.cons_ne_nil term terms) precedences operands

theorem IsText.quotable {quote : Char} {content : List Char} (valid : IsText quote content) :
    ¬ ('"' ∈ content ∧ '\'' ∈ content) := by
  rintro ⟨double, single⟩
  obtain ⟨rfl | rfl, closed⟩ := valid
  · exact closed double
  · exact closed single

mutual
theorem Phrase.canonical {level : Nat} (phrase : Phrase level) (finite : Finite phrase.words) :
    phrase.expr.Canonical level :=
  match phrase with
  | .alone sum => .sum (sum.canonical finite)
  | .compared left _ right => .comparison (left.canonical finite.parts.1) (right.canonical finite.parts.2.tail)
  | .chain tier head terms =>
    canonical_joined tier (head.canonical finite.parts.1) terms.tier (terms.canonical finite.parts.2)
  | .signed none valid atom => canonical_signed valid (atom.canonical finite)
  | .signed (some _) valid atom => canonical_signed valid (atom.canonical finite.tail)
termination_by structural phrase

theorem Terms.canonical {level : Nat} (terms : Terms level) (finite : Finite terms.words) :
    ∀ term ∈ terms.exprs, term.2.Canonical (level + 1) :=
  match terms with
  | .nil => nofun
  | .cons _ _ operand terms => List.forall_mem_cons.mpr
      ⟨operand.canonical finite.tail.parts.1, terms.canonical finite.tail.parts.2⟩
termination_by structural terms

theorem Atom.canonical (atom : Atom) (finite : Finite atom.words) : atom.expr.Canonical 5 :=
  match atom with
  | .number numeral _ => by
    have plain := Doubles.plain_of_numeral (finite numeral List.mem_cons_self)
    obtain ⟨finite, unsigned⟩ := Doubles.plain_iff.mp plain
    exact .number finite unsigned
  | .text quote content valid => by
    refine .text ?_
    rw [String.toList_ofList]
    exact valid.quotable
  | .field letters valid => by
    refine .field ?_
    rwa [String.toList_ofList]
  | .call letters valid arguments => by
    refine .call ?_ (arguments.canonical finite.tail.tail.parts.1)
    rwa [String.toList_ofList]
  | .group inner => .group (inner.canonical finite.tail.parts.1)
termination_by structural atom

theorem Arguments.canonical (arguments : Arguments) (finite : Finite arguments.words) :
    ∀ argument ∈ arguments.exprs, argument.Canonical 0 :=
  match arguments with
  | .none => nofun
  | .some first later => List.forall_mem_cons.mpr ⟨first.canonical finite.parts.1, later.canonical finite.parts.2⟩
termination_by structural arguments

theorem Later.canonical (later : Later) (finite : Finite later.words) :
    ∀ argument ∈ later.exprs, argument.Canonical 0 :=
  match later with
  | .nil => nofun
  | .cons argument later => List.forall_mem_cons.mpr
      ⟨argument.canonical finite.tail.parts.1, later.canonical finite.tail.parts.2⟩
termination_by structural later
end

private theorem WrittenChain.exists_append {level : Nat} {text : List Char} {head : Expr} {before : List (Operator × Expr)}
    (written : WrittenChain level text head before) (terms : List (Operator × Expr))
    (precedences : ∀ term ∈ terms, term.1.precedence = level)
    (operands : ∀ term ∈ terms, ∃ text, Written (level + 1) text term.2) :
    ∃ text, WrittenChain level text head (before ++ terms) := by
  induction terms generalizing text before with
  | nil =>
    rw [List.append_nil]
    exact ⟨text, written⟩
  | cons term terms ih =>
    obtain ⟨same, precedences⟩ := List.forall_mem_cons.mp precedences
    obtain ⟨⟨_, operand⟩, operands⟩ := List.forall_mem_cons.mp operands
    have longer := ih (written.snoc same operand) precedences operands
    rwa [List.append_assoc] at longer

private theorem exists_writtenLater_of_each {arguments : List Expr}
    (each : ∀ argument ∈ arguments, ∃ text, Written 0 text argument) :
    ∃ text, WrittenLater text arguments := by
  induction arguments with
  | nil => exact ⟨[], writtenLater_nil⟩
  | cons argument arguments ih =>
    obtain ⟨⟨_, first⟩, later⟩ := List.forall_mem_cons.mp each
    obtain ⟨_, rest⟩ := ih later
    exact ⟨_, rest.cons first⟩

private theorem exists_writtenArguments_of_each {arguments : List Expr}
    (each : ∀ argument ∈ arguments, ∃ text, Written 0 text argument) : ∃ text, WrittenArguments text arguments := by
  cases arguments with
  | nil => exact ⟨[], writtenArguments_nil⟩
  | cons argument arguments =>
    obtain ⟨⟨_, first⟩, later⟩ := List.forall_mem_cons.mp each
    obtain ⟨_, rest⟩ := exists_writtenLater_of_each later
    exact ⟨_, rest.arguments first⟩

end Grammar

namespace Expr.Canonical

private theorem atom_not_compound {level : Nat} {expr : Expr} (canonical : expr.Canonical level) (atom : level = 5) :
    expr.isCompound = false := by
  cases canonical with
  | number | text | field | group | call => rfl
  | unsigned | signed | sum | comparison => cases atom
  | alone tier | chain tier =>
    subst atom
    exact absurd tier.2 (by decide)

theorem not_comparison {level : Nat} {expr : Expr} (canonical : expr.Canonical level) (inner : level ≠ 0) :
    expr.isComparison = false := by
  induction canonical with
  | number | text | field | group | call | signed | chain => rfl
  | unsigned _ ih => exact ih (by decide)
  | alone _ _ ih => exact ih (Nat.succ_ne_zero _)
  | sum | comparison => exact absurd rfl inner

/-- Some text is read as the formula at its level, an atom as an operand without a sign. -/
theorem exists_written {level : Nat} {expr : Expr} (canonical : expr.Canonical level) :
    ∃ text, Written (min level 4) text expr := by
  induction canonical with
  | number finite unsigned =>
    exact ⟨_, (writtenAtom_literal (Doubles.plain_iff.mpr ⟨finite, unsigned⟩)).written⟩
  | @text content quotable =>
    obtain ⟨_, valid⟩ := exists_isText quotable
    have written := writtenAtom_text valid
    rw [String.ofList_toList] at written
    exact ⟨_, written.written⟩
  | @field name valid =>
    have written := writtenAtom_field valid
    rw [String.ofList_toList] at written
    exact ⟨_, written.written⟩
  | group whole ih =>
    obtain ⟨_, written⟩ := ih
    exact ⟨_, written.group.written⟩
  | call valid each ih =>
    obtain ⟨_, written⟩ := exists_writtenArguments_of_each ih
    have written := written.call valid
    rw [String.ofList_toList] at written
    exact ⟨_, written.written⟩
  | unsigned canonical ih => exact ih
  | signed isSign canonical ih =>
    obtain ⟨_, written⟩ := ih
    have simple := canonical.atom_not_compound rfl
    refine ⟨_, (written.atom simple).signed ?_⟩
    rcases isSign with rfl | rfl <;> rfl
  | @alone level operand tier canonical ih =>
    obtain ⟨text, written⟩ := ih
    have least := tier.2
    exact ⟨text, written.down (by omega)⟩
  | @chain level head terms tier first some precedences operands ih ih' =>
    have least := tier.2
    rw [Nat.min_eq_left (Nat.succ_le_succ least)] at ih ih'
    obtain ⟨_, head⟩ := ih
    obtain ⟨text, written⟩ := head.operand.exists_append terms precedences ih'
    have written := written.written tier
    rw [List.nil_append, joined_of_ne_nil some] at written
    rw [Nat.min_eq_left (Nat.le_succ_of_le least)]
    exact ⟨text, written⟩
  | sum canonical ih =>
    obtain ⟨_, written⟩ := ih
    exact ⟨_, written.outer⟩
  | comparison first second ih ih' =>
    obtain ⟨_, left⟩ := ih
    obtain ⟨_, right⟩ := ih'
    exact ⟨_, left.compared right _⟩

private theorem regular_terms {terms : List (Operator × Expr)} (each : ∀ term ∈ terms, term.2.Regular) :
    termsRegular terms := by
  induction terms with
  | nil => trivial
  | cons term terms ih =>
    obtain ⟨first, later⟩ := List.forall_mem_cons.mp each
    exact ⟨first, ih later⟩

private theorem regular_arguments {arguments : List Expr} (each : ∀ argument ∈ arguments, argument.Regular) :
    argumentsRegular arguments := by
  induction arguments with
  | nil => trivial
  | cons argument arguments ih =>
    obtain ⟨first, later⟩ := List.forall_mem_cons.mp each
    exact ⟨first, ih later⟩

theorem regular {level : Nat} {expr : Expr} (canonical : expr.Canonical level) : expr.Regular := by
  have zero : Regular (.literal (.number 0)) := ⟨by decide +kernel, by decide +kernel⟩
  induction canonical with
  | number finite unsigned => exact ⟨finite, (Doubles.plain_iff.mpr ⟨finite, unsigned⟩).not_negative⟩
  | text | field => trivial
  | group _ ih | unsigned _ ih | alone _ _ ih | sum _ ih => exact ih
  | call _ _ ih => exact regular_arguments ih
  | @signed sign atom _ canonical ih =>
    refine ⟨List.cons_ne_nil _ _, ⟨sign.precedence, ?_⟩, rfl, ?_, zero, ih, trivial⟩
    · exact List.forall_mem_singleton.mpr rfl
    · exact List.forall_mem_singleton.mpr (canonical.not_comparison (by decide))
  | @chain level head terms _ first some precedences operands ih ih' =>
    refine ⟨some, ⟨level, precedences⟩, first.not_comparison (Nat.succ_ne_zero level), ?_, ih, regular_terms ih'⟩
    intro term member
    exact (operands term member).not_comparison (Nat.succ_ne_zero level)
  | comparison first second ih ih' =>
    exact ⟨first.not_comparison Nat.one_ne_zero, second.not_comparison Nat.one_ne_zero, ih, ih'⟩

end Expr.Canonical

/-- The formulas that some text compiles to under a limit are the canonical ones whose brackets
and calls keep to it; they are regular in all their parts. -/
theorem exists_compile_eq_ok_iff (limit : Nat) (expr : Expr) :
    ((∃ text, compile limit text = .ok expr) ↔ expr.Canonical 0 ∧ expr.nesting ≤ limit) ∧
      ∀ text, compile limit text = .ok expr → expr.Regular := by
  have canonical : ∀ text, compile limit text = .ok expr → expr.Canonical 0 ∧ expr.nesting ≤ limit := by
    intro text compiled
    obtain ⟨phrase, -, fits, finite, rfl⟩ := compileChars_eq_ok_iff.mp compiled
    rw [phrase.nesting_expr]
    exact ⟨phrase.canonical finite, fits⟩
  refine ⟨⟨?_, ?_⟩, ?_⟩
  · rintro ⟨text, compiled⟩
    exact canonical text compiled
  · rintro ⟨shape, fits⟩
    obtain ⟨text, phrase, spaced, finite, rfl⟩ := shape.exists_written
    rw [phrase.nesting_expr] at fits
    refine ⟨.ofList text, compileChars_eq_ok_iff.mpr ⟨phrase, ?_, fits, finite, rfl⟩⟩
    rwa [String.toList_ofList]
  · intro text compiled
    exact (canonical text compiled).1.regular

end Formula
