import Formula.Proofs.Nesting
import Formula.Proofs.Plain
import Formula.Proofs.Writing

/-! A formula that was compiled is written with exactly its own brackets. Its chains join
operators of one precedence with operands that bind tighter, so that no bracket is added,
and a chain that looks like a signed operand is read as the same chain. -/

namespace Formula

namespace Grammar

open Formula.Expr

theorem Atom.not_compound (atom : Atom) : atom.expr.isCompound = false := by cases atom <;> rfl

theorem Atom.binding (atom : Atom) : atom.expr.binding = atomBinding := by cases atom <;> rfl

private theorem Phrase.atom_of_simple {level : Nat} (phrase : Phrase level) (simple : phrase.expr.isCompound = false) :
    ∃ atom : Atom, phrase.words = atom.words ∧ phrase.expr = atom.expr :=
  match phrase with
  | .alone sum => sum.atom_of_simple simple
  | .compared .. => nomatch simple
  | .chain _ head .nil => by
    obtain ⟨atom, words, expr⟩ := head.atom_of_simple simple
    exact ⟨atom, by rw [Phrase.words, Terms.words, List.append_nil, words], expr⟩
  | .chain _ _ (.cons ..) => nomatch simple
  | .signed none _ atom => ⟨atom, rfl, rfl⟩
  | .signed (some _) _ _ => nomatch simple
termination_by structural phrase

/-- The conditions of a chain that is written as a signed operand. -/
theorem isSigned_iff {head : Expr} {terms : List (Operator × Expr)} : isSigned head terms = true ↔
    ∃ x sign operand, head = .literal (.number x) ∧ terms = [(sign, operand)] ∧ (x == 0) = true ∧
      sign.isSign = true ∧ operand.isCompound = false := by
  constructor
  · intro signed
    unfold isSigned at signed
    split at signed
    · next x sign operand =>
      simp only [Bool.and_eq_true, Bool.not_eq_true'] at signed
      exact ⟨x, sign, operand, rfl, rfl, signed.1.1, signed.1.2, signed.2⟩
    · cases signed
  · rintro ⟨x, sign, operand, rfl, rfl, zero, isSign, simple⟩
    simp [isSigned, zero, isSign, simple]

private theorem isSigned_zero {sign : Operator} {operand : Expr} (isSign : sign.isSign = true)
    (simple : operand.isCompound = false) :
    isSigned (.literal (.number 0)) [(sign, operand)] = true :=
  isSigned_iff.mpr ⟨0, sign, operand, rfl, rfl, by decide +kernel, isSign, simple⟩

theorem binding_signed {head : Expr} {terms : List (Operator × Expr)} (signed : isSigned head terms = true) :
    (chain head terms).binding = 4 := by
  rw [Expr.binding, if_pos signed]
  rfl

theorem chars_signed {head : Expr} {sign : Operator} {operand : Expr} (signed : isSigned head [(sign, operand)] = true) :
    (chain head [(sign, operand)]).chars = sign.symbol :: operand.chars := by
  rw [chars, if_pos signed, signedChars, signedChars, List.append_nil]

theorem chars_unsigned {head : Expr} {terms : List (Operator × Expr)} (unsigned : isSigned head terms = false) :
    (chain head terms).chars =
      List.replicate (opened head.binding terms) '(' ++ head.chars ++ termsChars head.binding terms := by
  rw [chars, unsigned, if_neg Bool.false_ne_true]

private theorem le_foldl_precedence {terms : List (Operator × Expr)} {level binding : Nat} :
    level ≤ terms.foldl (fun loosest term => min loosest term.1.precedence) binding ↔
      level ≤ binding ∧ ∀ term ∈ terms, level ≤ term.1.precedence := by
  induction terms generalizing binding with
  | nil => simp
  | cons term terms ih => rw [List.foldl_cons, ih, Nat.le_min, List.forall_mem_cons, and_assoc]

/-- A chain binds as loosely as the loosest of its operators and its head. -/
theorem le_binding_chain {head : Expr} {terms : List (Operator × Expr)} (unsigned : isSigned head terms = false)
    {level : Nat} : level ≤ (chain head terms).binding ↔
      level ≤ head.binding ∧ ∀ term ∈ terms, level ≤ term.1.precedence := by
  have binding : (chain head terms).binding =
      terms.foldl (fun loosest term => min loosest term.1.precedence) head.binding := by
    rw [Expr.binding, unsigned]
    rfl
  rw [binding, le_foldl_precedence]

/-- A phrase binds at least as tightly as its level. -/
theorem Phrase.binding {level : Nat} (phrase : Phrase level) : level ≤ phrase.expr.binding :=
  match phrase with
  | .alone _ => Nat.zero_le _
  | .compared .. => Nat.zero_le _
  | .chain _ head .nil => Nat.le_of_succ_le head.binding
  | .chain tier head (.cons operator same operand terms) => by
    have tiers := (Terms.cons operator same operand terms).tier
    change level ≤ (Expr.chain head.expr ((operator, operand.expr) :: terms.exprs)).binding
    cases signed : isSigned head.expr ((operator, operand.expr) :: terms.exprs) with
    | true =>
      rw [Expr.binding, if_pos signed]
      exact Nat.le_succ_of_le tier.2
    | false =>
      rw [le_binding_chain signed]
      exact ⟨Nat.le_of_succ_le head.binding, fun term member => Nat.le_of_eq (tiers term member).symm⟩
  | .signed none _ atom => Nat.le_of_eq atom.binding.symm
  | .signed (some _) valid atom => Nat.le_of_eq (binding_signed (isSigned_zero (valid _ rfl) atom.not_compound)).symm
termination_by structural phrase

theorem opened_of_tier {level binding : Nat} (least : level ≤ binding) {terms : List (Operator × Expr)}
    (tiers : ∀ term ∈ terms, term.1.precedence = level) : opened binding terms = 0 := by
  induction terms generalizing binding with
  | nil => rfl
  | cons term terms ih =>
    obtain ⟨same, later⟩ := List.forall_mem_cons.mp tiers
    rw [opened, if_neg (by omega), ih (Nat.le_of_eq same.symm) later]

private theorem literalChars_text {quote : Char} {content : List Char} (valid : IsText quote content) :
    ∃ quote', literalChars (.text (.ofList content)) = quote' :: content ++ [quote'] ∧ IsText quote' content := by
  obtain ⟨sort, closed⟩ := valid
  simp only [literalChars, String.toList_ofList]
  by_cases double : '"' ∈ content
  · have single : quote = '\'' := sort.resolve_left fun same => closed (same ▸ double)
    subst single
    refine ⟨'\'', ?_, .inr rfl, closed⟩
    simp [double]
  · refine ⟨'"', ?_, .inl rfl, double⟩
    simp [double]

theorem writtenAtom_literal {x : Float} (plain : Doubles.Plain x) :
    WrittenAtom (literalChars (.number x)) (.literal (.number x)) := by
  obtain ⟨numeral, valid, chars, rfl⟩ := Doubles.chars_readBack plain
  have text : literalChars (.number numeral.toFloat) = numeral.chars := by
    rw [chars]
    exact String.toList_ofList
  rw [text]
  exact writtenAtom_number valid plain.isFinite

theorem writtenAtom_content {content : String} (quotable : ¬ ('"' ∈ content.toList ∧ '\'' ∈ content.toList)) :
    WrittenAtom (chars (.literal (.text content))) (.literal (.text content)) := by
  obtain ⟨_, valid⟩ := exists_isText quotable
  obtain ⟨quote, text, valid⟩ := literalChars_text valid
  have atom := writtenAtom_text valid
  rwa [← text, String.ofList_toList] at atom

theorem writtenAtom_name {name : String} (valid : IsName name.toList) : WrittenAtom (chars (.field name)) (.field name) := by
  have atom := writtenAtom_field valid
  rwa [String.ofList_toList] at atom

theorem written_negative {x : Float} (plain : Doubles.Plain (-x)) (text : Number.chars x = '-' :: Number.chars (-x)) :
    Written 4 (chars (.literal (.number x))) (.chain (.literal (.number 0)) [(.subtract, .literal (.number (-x)))]) := by
  have signed : chars (.literal (.number x)) = Operator.subtract.symbol :: literalChars (.number (-x)) := by
    change (String.ofList (Number.chars x)).toList = '-' :: (String.ofList (Number.chars (-x))).toList
    rw [String.toList_ofList, String.toList_ofList, text]
  rw [signed]
  exact (writtenAtom_literal plain).signed rfl

/-- No bracket stands before an operator of the chain so far or around an operand that binds tighter. -/
private theorem termsChars_tier {level binding : Nat} (least : level ≤ binding) {operator : Operator}
    (same : operator.precedence = level) (operand : Phrase (level + 1)) (terms : List (Operator × Expr)) :
    termsChars binding ((operator, operand.expr) :: terms) =
      ' ' :: operator.symbol :: ' ' :: operand.expr.chars ++ termsChars operator.precedence terms := by
  have tighter := operand.binding
  have unclosed : ¬ binding < operator.precedence := by omega
  have unopened : decide (operand.expr.binding ≤ operator.precedence) = false := by
    rw [decide_eq_false_iff_not]
    omega
  rw [termsChars, if_neg unclosed, unopened]
  rfl

private theorem chars_tier {level : Nat} (head : Phrase (level + 1)) {operator : Operator}
    (same : operator.precedence = level) (operand : Phrase (level + 1)) (terms : Terms level)
    (unsigned : isSigned head.expr ((operator, operand.expr) :: terms.exprs) = false) :
    chars (.chain head.expr ((operator, operand.expr) :: terms.exprs)) =
      head.expr.chars ++ ' ' :: operator.symbol :: ' ' :: operand.expr.chars ++
        termsChars operator.precedence terms.exprs := by
  have least := Nat.le_of_succ_le head.binding
  have unopened : opened head.expr.binding ((operator, operand.expr) :: terms.exprs) = 0 :=
    opened_of_tier least (Terms.cons operator same operand terms).tier
  rw [chars_unsigned unsigned, unopened, termsChars_tier least same]
  simp only [List.replicate_zero, List.nil_append, List.append_assoc]

private theorem Phrase.not_comparison (phrase : Phrase 1) : phrase.expr.isComparison = false := by
  have binding := phrase.binding
  cases expr : phrase.expr with
  | comparison left relation right =>
    rw [expr] at binding
    exact absurd binding (Nat.not_succ_le_zero 0)
  | literal | field | chain | group | call => rfl

/-- The head of a chain that looks like a signed operand is the zero that a sign stands for. -/
private theorem Phrase.eq_zero {level : Nat} (phrase : Phrase level) (finite : Finite phrase.words) {x : Float}
    (literal : phrase.expr = .literal (.number x)) (zero : (x == 0) = true) : x = 0 := by
  obtain ⟨atom, words, expr⟩ := phrase.atom_of_simple (by rw [literal]; rfl)
  rw [literal] at expr
  rw [words] at finite
  cases atom with
  | number numeral valid =>
    cases expr
    exact Doubles.eq_zero_of_beq (Doubles.plain_of_numeral (finite numeral List.mem_cons_self)).ne_neg_zero zero
  | text | field | call | group => cases expr

theorem Written.atom {level : Nat} {text : List Char} {expr : Expr} (written : Written level text expr)
    (simple : expr.isCompound = false) : WrittenAtom text expr := by
  obtain ⟨phrase, spaced, finite, rfl⟩ := written
  obtain ⟨atom, words, expr⟩ := phrase.atom_of_simple simple
  rw [words] at spaced finite
  exact ⟨atom, spaced, finite, expr.symm⟩

mutual
/-- The text of the formula of a derivation has a derivation with the same formula. -/
theorem Phrase.rewritten {level : Nat} (phrase : Phrase level) (finite : Finite phrase.words) :
    Written level phrase.expr.chars phrase.expr :=
  match phrase with
  | .alone sum => (sum.rewritten finite).outer
  | .compared left relation right => by
    obtain ⟨finite, later⟩ := finite.parts
    have written := (left.rewritten finite).compared (right.rewritten later.tail) relation
    simpa only [Phrase.expr, chars, left.not_comparison, right.not_comparison, bracketed, Bool.false_eq_true, if_false]
      using written
  | .chain tier head .nil => (head.rewritten finite.parts.1).down (Nat.le_succ _)
  | .chain tier head (.cons operator same operand terms) => by
    obtain ⟨finite, later⟩ := finite.parts
    obtain ⟨finite', finite''⟩ := later.tail.parts
    have first := head.rewritten finite
    have second := operand.rewritten finite'
    have rest := terms.rewritten finite'' (first.operand.snoc same second) (Nat.le_of_eq same.symm)
    change Written level (chars (.chain head.expr ((operator, operand.expr) :: terms.exprs)))
      (.chain head.expr ((operator, operand.expr) :: terms.exprs))
    cases signed : isSigned head.expr ((operator, operand.expr) :: terms.exprs) with
    | true =>
      obtain ⟨x, sign, inner, literal, one, zero, isSign, simple⟩ := isSigned_iff.mp signed
      injection one with pair none
      injection pair with sign operand
      subst sign operand
      have zero := head.eq_zero finite literal zero
      subst zero
      have written := (second.atom simple).signed isSign
      rw [none, literal, chars_signed (isSigned_zero isSign simple)]
      exact written.down (Nat.le_succ_of_le tier.2)
    | false =>
      rw [chars_tier head same operand terms signed]
      exact rest.written tier
  | .signed none _ atom => (atom.rewritten finite).written
  | .signed (some sign) valid atom => by
    have isSign := valid sign rfl
    have written := (atom.rewritten finite.tail).signed isSign
    change Written 4 (chars (.chain (.literal (.number 0)) [(sign, atom.expr)])) _
    rw [chars_signed (isSigned_zero isSign atom.not_compound)]
    exact written
termination_by structural phrase

theorem Terms.rewritten {level : Nat} (terms : Terms level) (finite : Finite terms.words) {text : List Char}
    {head : Expr} {before : List (Operator × Expr)} (written : WrittenChain level text head before) {binding : Nat}
    (least : level ≤ binding) : WrittenChain level (text ++ termsChars binding terms.exprs) head (before ++ terms.exprs) :=
  match terms with
  | .nil => by simpa only [Terms.exprs, termsChars, List.append_nil] using written
  | .cons operator same operand terms => by
    obtain ⟨finite, finite'⟩ := finite.tail.parts
    have longer := written.snoc same (operand.rewritten finite)
    have rest := terms.rewritten finite' longer (Nat.le_of_eq same.symm)
    rw [Terms.exprs, termsChars_tier least same]
    simpa only [List.append_assoc, List.cons_append, List.nil_append] using rest
termination_by structural terms

theorem Atom.rewritten (atom : Atom) (finite : Finite atom.words) : WrittenAtom atom.expr.chars atom.expr :=
  match atom with
  | .number numeral _ => by
    have plain := Doubles.plain_of_numeral (finite numeral List.mem_cons_self)
    exact writtenAtom_literal plain
  | .text quote content valid => by
    obtain ⟨quote', text, valid'⟩ := literalChars_text valid
    change WrittenAtom (literalChars (.text (.ofList content))) _
    rw [text]
    exact writtenAtom_text valid'
  | .field letters valid => by
    change WrittenAtom (String.ofList letters).toList _
    rw [String.toList_ofList]
    exact writtenAtom_field valid
  | .call letters valid arguments => by
    change WrittenAtom ((String.ofList letters).toList ++ '(' :: argumentsChars arguments.exprs ++ [')']) _
    rw [String.toList_ofList]
    exact (arguments.rewritten finite.tail.tail.parts.1).call valid
  | .group inner => (inner.rewritten finite.tail.parts.1).group
termination_by structural atom

theorem Arguments.rewritten (arguments : Arguments) (finite : Finite arguments.words) :
    WrittenArguments (argumentsChars arguments.exprs) arguments.exprs :=
  match arguments with
  | .none => writtenArguments_nil
  | .some first later => (later.rewritten finite.parts.2).arguments (first.rewritten finite.parts.1)
termination_by structural arguments

theorem Later.rewritten (later : Later) (finite : Finite later.words) : WrittenLater (laterChars later.exprs) later.exprs :=
  match later with
  | .nil => writtenLater_nil
  | .cons argument later => (later.rewritten finite.tail.parts.2).cons (argument.rewritten finite.tail.parts.1)
termination_by structural later
end

mutual
/-- The formula of a derivation has no number that differs from itself. -/
theorem Phrase.same_self {level : Nat} (phrase : Phrase level) (finite : Finite phrase.words) :
    phrase.expr.same phrase.expr = true :=
  match phrase with
  | .alone sum => sum.same_self finite
  | .compared left relation right => by
    have first := left.same_self finite.parts.1
    have second := right.same_self finite.parts.2.tail
    simp [Phrase.expr, Expr.same, first, second]
  | .chain _ head .nil => head.same_self finite.parts.1
  | .chain _ head (.cons operator _ operand terms) => by
    obtain ⟨finite, later⟩ := finite.parts
    have first := head.same_self finite
    have second := operand.same_self later.tail.parts.1
    have rest := terms.same_self later.tail.parts.2
    simp [Phrase.expr, Terms.exprs, joined, Expr.same, sameTerms, first, second, rest]
  | .signed none _ atom => atom.same_self finite
  | .signed (some sign) _ atom => by
    have inner := atom.same_self finite.tail
    have zero : ((0 : Float) == 0) = true := by decide +kernel
    simp [Phrase.expr, Expr.signed, Expr.same, sameTerms, Value.same, zero, inner]
termination_by structural phrase

theorem Terms.same_self {level : Nat} (terms : Terms level) (finite : Finite terms.words) :
    sameTerms terms.exprs terms.exprs = true :=
  match terms with
  | .nil => rfl
  | .cons _ _ operand terms => by
    have first := operand.same_self finite.tail.parts.1
    have rest := terms.same_self finite.tail.parts.2
    simp [Terms.exprs, sameTerms, first, rest]
termination_by structural terms

theorem Atom.same_self (atom : Atom) (finite : Finite atom.words) : atom.expr.same atom.expr = true :=
  match atom with
  | .number numeral _ => (Doubles.plain_of_numeral (finite numeral List.mem_cons_self)).beq_self
  | .text .. | .field .. => by simp [Atom.expr, Expr.same, Value.same]
  | .call _ _ arguments => by
    have inner := arguments.same_self finite.tail.tail.parts.1
    simp [Atom.expr, Expr.same, inner]
  | .group inner => inner.same_self finite.tail.parts.1
termination_by structural atom

theorem Arguments.same_self (arguments : Arguments) (finite : Finite arguments.words) :
    sameArguments arguments.exprs arguments.exprs = true :=
  match arguments with
  | .none => rfl
  | .some first later => by
    have one := first.same_self finite.parts.1
    have others := later.same_self finite.parts.2
    simp [Arguments.exprs, sameArguments, one, others]
termination_by structural arguments

theorem Later.same_self (later : Later) (finite : Finite later.words) : sameArguments later.exprs later.exprs = true :=
  match later with
  | .nil => rfl
  | .cons argument later => by
    have one := argument.same_self finite.tail.parts.1
    have others := later.same_self finite.tail.parts.2
    simp [Later.exprs, sameArguments, one, others]
termination_by structural later
end

end Grammar

open Grammar

/-- The text of a formula that was compiled compiles to the same formula again, under the same limit. -/
theorem compile_text_of_compile {limit : Nat} {text : String} {expr : Expr} (compiled : compile limit text = .ok expr) :
    compile limit expr.text = .ok expr ∧ expr.same expr = true := by
  obtain ⟨phrase, -, fits, finite, rfl⟩ := compileChars_eq_ok_iff.mp compiled
  obtain ⟨again, spaced, finite', same⟩ := phrase.rewritten finite
  refine ⟨compileChars_eq_ok_iff.mpr ⟨again, ?_, ?_, finite', same⟩, phrase.same_self finite⟩
  · rw [Expr.text, String.toList_ofList]
    exact spaced
  · rwa [← again.nesting_expr, same, phrase.nesting_expr]

theorem compile_text_of_compile_signed :
    compile 1 "0 - (a)" = .ok (.chain (.literal (.number 0)) [(.subtract, .group (.field "a"))]) ∧
      compile 1 (Expr.text (.chain (.literal (.number 0)) [(.subtract, .group (.field "a"))])) =
        .ok (.chain (.literal (.number 0)) [(.subtract, .group (.field "a"))]) :=
  ⟨rfl, (@compile_text_of_compile 1 "0 - (a)" _ rfl).1⟩

end Formula
