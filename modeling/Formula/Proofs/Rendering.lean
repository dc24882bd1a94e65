import Formula.Proofs.Meaning
import Formula.Proofs.Trimming

/-! How each sort of formula is written, its parts being written already. The text is one of
the grammar, at the level at which the printer takes it to hold together. Its brackets nest
as deep as can be told from the formula: around the text so far of a chain, the printer sets
one more each time that the precedence rises. What the text is read as has the meaning of
the formula, unless there is a negative zero in that, which is read as zero. -/

namespace Formula

open Grammar

/-- Which numbers may stand in a formula that is made by hand, and which count as signed. -/
structure Numbers where
  allowed : Float → Prop
  signed : Float → Prop
  finite {x : Float} : allowed x → x.isFinite = true
  sign {x : Float} : allowed x → x.toBits.toBitVec.msb = true → signed x

/-- The text of each number has its value, unlike that of the negative zero. -/
def Numbers.Faithful (numbers : Numbers) : Prop := ∀ x, numbers.allowed x → x ≠ -0

def Expr.HasSign (numbers : Numbers) : Expr → Prop
  | .literal (.number x) => numbers.signed x
  | _ => False

mutual
/-- A formula made by hand whose text the grammar allows: no chain lacks terms, strings can be
quoted, names are names, and the operand of a sign has no sign of its own. -/
def Expr.Orderly (numbers : Numbers) : Expr → Prop
  | .literal (.number x) => numbers.allowed x
  | .literal (.text content) => ¬ ('"' ∈ content.toList ∧ '\'' ∈ content.toList)
  | .literal (.boolean _) | .literal .null => False
  | .field name => IsName name.toList
  | .chain head terms => terms ≠ [] ∧ head.Orderly numbers ∧ termsOrderly numbers terms ∧
      ∀ x sign operand, head = .literal (.number x) → (x == 0) = true → sign.isSign = true →
        terms = [(sign, operand)] → ¬ operand.HasSign numbers
  | .comparison left _ right => left.Orderly numbers ∧ right.Orderly numbers
  | .group inner => inner.Orderly numbers
  | .call name arguments => IsName name.toList ∧ argumentsOrderly numbers arguments
termination_by structural expr => expr

def termsOrderly (numbers : Numbers) : List (Operator × Expr) → Prop
  | [] => True
  | (_, operand) :: terms => operand.Orderly numbers ∧ termsOrderly numbers terms
termination_by structural terms => terms

def argumentsOrderly (numbers : Numbers) : List Expr → Prop
  | [] => True
  | argument :: arguments => argument.Orderly numbers ∧ argumentsOrderly numbers arguments
termination_by structural arguments => arguments
end

mutual
def Expr.textNesting : Expr → Nat
  | .literal _ | .field _ => 0
  | .chain head terms => max (head.textNesting + Expr.opened head.binding terms) (termsTextNesting terms)
  | .comparison left _ right =>
    max (left.textNesting + left.isComparison.toNat) (right.textNesting + right.isComparison.toNat)
  | .group inner => inner.textNesting + 1
  | .call _ arguments => argumentsTextNesting arguments + 1
termination_by structural expr => expr

/-- Around an operand of a chain stand its own bracket and those that are closed after it. -/
def termsTextNesting : List (Operator × Expr) → Nat
  | [] => 0
  | (operator, operand) :: terms =>
    max (operand.textNesting + (decide (operand.binding ≤ operator.precedence)).toNat +
      Expr.opened operator.precedence terms) (termsTextNesting terms)
termination_by structural terms => terms

def argumentsTextNesting : List Expr → Nat
  | [] => 0
  | argument :: arguments => max argument.textNesting (argumentsTextNesting arguments)
termination_by structural arguments => arguments
end

namespace Grammar

open Formula.Expr

/-- What the text of a formula is read as. -/
structure Rendered (numbers : Numbers) (expr again : Expr) : Prop where
  trimmed : Trimmed expr.chars
  written : Written expr.binding expr.chars again
  /-- Only a comparison needs brackets beside a comparison. -/
  side : expr.isComparison = false → Written 1 expr.chars again
  atom : expr.isCompound = false → ¬ expr.HasSign numbers → WrittenAtom expr.chars again
  nesting : again.nesting = expr.textNesting
  agrees : numbers.Faithful → Agrees expr again

variable {numbers : Numbers}

private theorem rendered_atom {expr again : Expr} (binding : expr.binding = atomBinding) (trimmed : Trimmed expr.chars)
    (atom : WrittenAtom expr.chars again) (nesting : again.nesting = expr.textNesting)
    (agrees : numbers.Faithful → Agrees expr again) : Rendered numbers expr again where
  trimmed := trimmed
  written := binding ▸ atom.written
  side _ := atom.written.down (Nat.le_add_left 1 3)
  atom _ _ := atom
  nesting := nesting
  agrees := agrees

private theorem rendered_leaf {expr : Expr} (binding : expr.binding = atomBinding) (trimmed : Trimmed expr.chars)
    (atom : WrittenAtom expr.chars expr) (nesting : expr.nesting = expr.textNesting) : ∃ again, Rendered numbers expr again :=
  ⟨expr, rendered_atom binding trimmed atom nesting fun _ => .refl expr⟩

/-- A sign is no part of a numeral, so a number that has one is written as a signed operand. -/
private theorem rendered_number {x : Float} (allowed : numbers.allowed x) :
    ∃ again, Rendered numbers (.literal (.number x)) again := by
  have finite := numbers.finite allowed
  have text : chars (.literal (.number x)) = Number.chars x := String.toList_ofList
  cases sign : x.toBits.toBitVec.msb with
  | false =>
    have plain := Doubles.plain_iff.mpr ⟨finite, sign⟩
    exact rendered_leaf rfl (text ▸ trimmed_number plain) (writtenAtom_literal plain) rfl
  | true =>
    obtain ⟨plain, signed⟩ := Doubles.plain_neg finite sign
    have written := written_negative plain signed
    refine ⟨_, ?_, written, fun _ => written.down (Nat.le_add_left 1 3),
      fun _ unsigned => absurd (numbers.sign allowed sign) unsigned, rfl, ?_⟩
    · rw [text, signed]
      exact (trimmed_number plain).signed .subtract
    · intro faithful scope _
      change Except.ok (Value.number (0 - -x)) = Except.ok (Value.number x)
      rw [Doubles.zero_sub_neg_of_sign finite (faithful x allowed) sign]

private theorem nesting_grouped (brackets : Bool) (expr : Expr) :
    (grouped brackets expr).nesting = expr.nesting + brackets.toNat := by
  cases brackets <;> rfl

private theorem nesting_joined_snoc (head : Expr) (terms : List (Operator × Expr)) (operator : Operator) (operand : Expr) :
    (joined head (terms ++ [(operator, operand)])).nesting = max (joined head terms).nesting operand.nesting := by
  have append : termsNesting (terms ++ [(operator, operand)]) = max (termsNesting terms) operand.nesting := by
    induction terms with
    | nil => exact Nat.max_comm operand.nesting 0
    | cons term terms ih => simp only [List.cons_append, termsNesting, ih, Nat.max_assoc]
  rw [nesting_joined, nesting_joined, append, Nat.max_assoc]

private theorem number_grouped (scope : Scope) (brackets : Bool) (expr : Expr) :
    (grouped brackets expr).number scope = expr.number scope := by
  cases brackets <;> rfl

/-- One more operator after a text so far, and the brackets that the printer sets for it. -/
private theorem Rendered.step {binding : Nat} {text : List Char} {sofar operand last : Expr}
    (rendered : Rendered numbers operand last) (written : Written binding text sofar) (operator : Operator) :
    ∃ again, Written operator.precedence
        (bracketed (binding < operator.precedence) text ++ ' ' :: operator.symbol :: ' ' ::
          bracketed (operand.binding ≤ operator.precedence) operand.chars) again ∧
      again.nesting = max (sofar.nesting + (decide (binding < operator.precedence)).toNat)
        (operand.textNesting + (decide (operand.binding ≤ operator.precedence)).toNat) ∧
      (numbers.Faithful → ∀ scope : Scope, scope.Valued → again.eval scope = (do
        let x ← sofar.number scope
        let y ← operand.number scope
        return .number (operator.apply x y))) := by
  obtain ⟨head, terms, same, longer⟩ := written.extend operator (rendered.written.fit operator)
  refine ⟨_, longer, ?_, ?_⟩
  · rw [nesting_joined_snoc, same, nesting_grouped, nesting_grouped, rendered.nesting]
  · intro faithful scope valued
    rw [eval_joined_snoc, same, number_grouped, number_grouped, (rendered.agrees faithful).number scope valued]

private theorem opened_cons (binding : Nat) (operator : Operator) (operand : Expr) (terms : List (Operator × Expr)) :
    opened binding ((operator, operand) :: terms) =
      (decide (binding < operator.precedence)).toNat + opened operator.precedence terms := by
  by_cases looser : binding < operator.precedence <;> simp [opened, looser]

/-- The text of a chain is written at the precedence of its last operator. Each bracket that
is still to come stands around the whole text so far. -/
private theorem exists_written_terms {binding : Nat} {text : List Char} {sofar : Expr} (written : Written binding text sofar)
    (terms : List (Operator × Expr)) (present : terms ≠ [])
    (rendered : ∀ term ∈ terms, ∃ again, Rendered numbers term.2 again) :
    ∃ again, ∃ term ∈ terms, Written term.1.precedence
        (List.replicate (opened binding terms) '(' ++ text ++ termsChars binding terms) again ∧
      again.nesting = max (sofar.nesting + opened binding terms) (termsTextNesting terms) ∧
      (numbers.Faithful → ∀ scope : Scope, scope.Valued → again.eval scope = (do
        let x ← sofar.number scope
        let result ← evalTerms scope x terms
        return .number result)) := by
  induction terms generalizing binding text sofar with
  | nil => exact absurd rfl present
  | cons term terms ih =>
    obtain ⟨operator, operand⟩ := term
    obtain ⟨⟨last, first⟩, later⟩ := List.forall_mem_cons.mp rendered
    have first : Rendered numbers operand last := first
    obtain ⟨longer, written, nesting, eval⟩ := first.step written operator
    rw [chars_step, opened_cons, termsTextNesting]
    cases terms with
    | nil =>
      refine ⟨longer, (operator, operand), List.mem_cons_self, ?_, ?_, ?_⟩
      · simpa [opened, termsChars] using written
      · simp only [nesting, termsTextNesting, opened, Nat.max_zero, Nat.add_zero]
      · intro faithful scope valued
        simp only [eval faithful scope valued, evalTerms_cons, evalTerms_nil, bind_assoc, pure_bind]
    | cons next terms =>
      obtain ⟨again, term, member, written, nesting', eval'⟩ := ih written (List.cons_ne_nil next terms) later
      refine ⟨again, term, List.mem_cons_of_mem _ member, written, ?_, ?_⟩
      · rw [nesting', nesting]
        omega
      · intro faithful scope valued
        have number : longer.number scope = (do
            let x ← sofar.number scope
            let y ← operand.number scope
            return operator.apply x y) := by
          apply number_of_eval
          simp only [eval faithful scope valued, bind_assoc, pure_bind]
        rw [eval' faithful scope valued, number]
        simp only [evalTerms_cons scope _ operator operand, bind_assoc, pure_bind]

/-- Every operator of the chain may be the last one, so the text fits the level of the chain. -/
private theorem rendered_chain {head : Expr} {terms : List (Operator × Expr)} (unsigned : isSigned head terms = false)
    (present : terms ≠ []) (first : ∃ again, Rendered numbers head again)
    (later : ∀ term ∈ terms, ∃ again, Rendered numbers term.2 again) : ∃ again, Rendered numbers (chain head terms) again := by
  obtain ⟨_, first⟩ := first
  obtain ⟨again, term, member, written, nesting, eval⟩ := exists_written_terms first.written terms present later
  rw [← chars_unsigned unsigned] at written
  obtain ⟨-, below⟩ := (le_binding_chain unsigned).mp (Nat.le_refl _)
  obtain ⟨least, -⟩ := isTier_precedence term.1
  have operands : ∀ term ∈ terms, Trimmed term.2.chars := by
    intro term member
    obtain ⟨_, rendered⟩ := later term member
    exact rendered.trimmed
  refine ⟨again, ?_, written.down (below term member), fun _ => written.down least, nofun, ?_, ?_⟩
  · rw [chars_unsigned unsigned]
    exact trimmed_terms first.trimmed terms operands
  · rw [nesting, first.nesting]
    rfl
  · intro faithful scope valued
    rw [eval faithful scope valued, eval_chain, (first.agrees faithful).number scope valued]

private theorem binding_of_simple {expr : Expr} (simple : expr.isCompound = false) : expr.binding = 4 := by
  cases expr with
  | chain | comparison => cases simple
  | literal | field | group | call => rfl

private theorem rendered_signed {head : Expr} {sign : Operator} {operand : Expr}
    (signed : isSigned head [(sign, operand)] = true) (first : head.Orderly numbers)
    (unsigned : ¬ operand.HasSign numbers) (rendered : ∃ again, Rendered numbers operand again) :
    ∃ again, Rendered numbers (chain head [(sign, operand)]) again := by
  obtain ⟨again, rendered⟩ := rendered
  obtain ⟨x, _, _, rfl, same, zero, isSign, simple⟩ := isSigned_iff.mp signed
  cases same
  have written := (rendered.atom simple unsigned).signed isSign
  have trimmed := rendered.trimmed.signed sign
  rw [← chars_signed signed] at written trimmed
  refine ⟨_, trimmed, binding_signed signed ▸ written, fun _ => written.down (Nat.le_add_left 1 3), nofun, ?_, ?_⟩
  · obtain ⟨-, most⟩ := isTier_precedence sign
    have bare : ¬ 4 ≤ sign.precedence := by omega
    have unopened : ¬ 4 < sign.precedence := by omega
    change max 0 (max again.nesting 0) = max (0 + opened 4 [(sign, operand)]) (termsTextNesting [(sign, operand)])
    simp [termsTextNesting, opened, binding_of_simple simple, bare, unopened, rendered.nesting]
  · intro faithful scope valued
    obtain rfl := Doubles.eq_zero_of_beq (faithful x first) zero
    rw [eval_chain, eval_chain]
    simp only [evalTerms_cons, (rendered.agrees faithful).number scope valued]

private theorem Rendered.beside {expr again : Expr} (rendered : Rendered numbers expr again) :
    Written 1 (bracketed expr.isComparison expr.chars) (grouped expr.isComparison again) :=
  rendered.written.bracketed (Nat.le_add_left 1 3) rendered.side

private theorem eval_grouped (scope : Scope) (brackets : Bool) (expr : Expr) :
    (grouped brackets expr).eval scope = expr.eval scope := by
  cases brackets <;> rfl

private theorem rendered_comparison {left right : Expr} (relation : Relation) (first : ∃ again, Rendered numbers left again)
    (second : ∃ again, Rendered numbers right again) : ∃ again, Rendered numbers (comparison left relation right) again := by
  obtain ⟨_, first⟩ := first
  obtain ⟨_, second⟩ := second
  have trimmed := (first.trimmed.bracketed left.isComparison).between (second.trimmed.bracketed right.isComparison)
    (' ' :: relation.symbol ++ [' '])
  refine ⟨_, by simpa [chars] using trimmed, first.beside.compared second.beside relation, nofun, nofun, ?_, ?_⟩
  · simp only [Expr.nesting, Expr.textNesting, nesting_grouped, first.nesting, second.nesting]
  · intro faithful scope valued
    simp only [eval_comparison, eval_grouped, first.agrees faithful scope valued, second.agrees faithful scope valued]

private theorem rendered_group {inner : Expr} (rendered : ∃ again, Rendered numbers inner again) :
    ∃ again, Rendered numbers (group inner) again := by
  obtain ⟨again, rendered⟩ := rendered
  exact ⟨_, rendered_atom rfl (trimmed_in_brackets inner.chars) rendered.written.outer.group
    (congrArg (· + 1) rendered.nesting) rendered.agrees⟩

private theorem argumentsNesting_eq {arguments others : List Expr}
    (same : List.Forall₂ (fun argument again => again.nesting = argument.textNesting) arguments others) :
    argumentsNesting others = argumentsTextNesting arguments := by
  induction same with
  | nil => rfl
  | cons first _ ih => rw [argumentsNesting, argumentsTextNesting, first, ih]

private theorem argumentValues_congr {arguments others : List Expr} (agree : List.Forall₂ Agrees arguments others)
    {scope : Scope} (valued : scope.Valued) :
    argumentValues (evalArguments scope others) = argumentValues (evalArguments scope arguments) := by
  induction agree with
  | nil => rfl
  | cons first _ ih =>
    simp only [argumentValues] at ih
    simp only [argumentValues, evalArguments_cons, List.map_cons, first scope valued, ih]

private theorem rendered_call {name : String} (valid : IsName name.toList) {arguments : List Expr}
    (rendered : ∀ argument ∈ arguments, ∃ again, Rendered numbers argument again) :
    ∃ again, Rendered numbers (call name arguments) again := by
  have each : ∀ argument ∈ arguments, ∃ again, Written 0 argument.chars again ∧ Rendered numbers argument again := by
    intro argument member
    obtain ⟨again, argument⟩ := rendered argument member
    exact ⟨again, argument.written.outer, argument⟩
  obtain ⟨others, written, reads⟩ := exists_writtenArguments arguments each
  have atom := written.call valid
  rw [String.ofList_toList] at atom
  have closing : Trimmed [')'] := trimmed_singleton rfl
  have trimmed := (trimmed_name valid).between closing ('(' :: argumentsChars arguments)
  have nesting := argumentsNesting_eq (reads.imp fun _ _ => Rendered.nesting)
  refine ⟨.call name others, rendered_atom rfl trimmed atom (congrArg (· + 1) nesting) ?_⟩
  intro faithful scope valued
  have values := argumentValues_congr (reads.imp fun _ _ argument => argument.agrees faithful) valued
  rw [eval_call, eval_call]
  cases found : scope.function? name with
  | none => rfl
  | some function => exact (valued name function found).call_congr scope values

mutual
/-- Each sort of formula is written by its own rule, from its parts. -/
theorem exists_rendered : (expr : Expr) → expr.Orderly numbers → ∃ again, Rendered numbers expr again
  | .literal (.number _), allowed => rendered_number allowed
  | .literal (.text content), valid => rendered_leaf rfl (trimmed_text content) (writtenAtom_content valid) rfl
  | .field _, valid => rendered_leaf rfl (trimmed_name valid) (writtenAtom_name valid) rfl
  | .chain head terms, ⟨present, first, later, unsigned⟩ => by
    have operands := exists_rendered_terms terms later
    cases signed : isSigned head terms with
    | true =>
      obtain ⟨x, sign, operand, literal, rfl, zero, isSign, -⟩ := isSigned_iff.mp signed
      exact rendered_signed signed first (unsigned x sign operand literal zero isSign rfl)
        (operands (sign, operand) List.mem_cons_self)
    | false => exact rendered_chain signed present (exists_rendered head first) operands
  | .comparison left relation right, ⟨first, second⟩ =>
    rendered_comparison relation (exists_rendered left first) (exists_rendered right second)
  | .group inner, orderly => rendered_group (exists_rendered inner orderly)
  | .call _ arguments, ⟨valid, orderly⟩ => rendered_call valid (exists_rendered_arguments arguments orderly)
termination_by structural expr => expr

theorem exists_rendered_terms : (terms : List (Operator × Expr)) → termsOrderly numbers terms →
    ∀ term ∈ terms, ∃ again, Rendered numbers term.2 again
  | [], _ => nofun
  | (_, operand) :: terms, ⟨first, later⟩ =>
    List.forall_mem_cons.mpr ⟨exists_rendered operand first, exists_rendered_terms terms later⟩
termination_by structural terms => terms

theorem exists_rendered_arguments : (arguments : List Expr) → argumentsOrderly numbers arguments →
    ∀ argument ∈ arguments, ∃ again, Rendered numbers argument again
  | [], _ => nofun
  | argument :: arguments, ⟨first, later⟩ =>
    List.forall_mem_cons.mpr ⟨exists_rendered argument first, exists_rendered_arguments arguments later⟩
termination_by structural arguments => arguments
end

end Grammar

end Formula
