import Formula.Proofs.RoundTrip

/-! The brackets that the printer adds, as brackets of the formula that its text is read as.
Around a part they leave an operand of any level, and with one more operator after it a
chain so far is the chain of the same precedence that it was, or the head of a new one. -/

namespace Formula.Grammar

open Formula.Expr

def grouped (brackets : Bool) (expr : Expr) : Expr := if brackets then .group expr else expr

variable {level least : Nat} {text : List Char} {expr : Expr}

/-- Brackets are needed only where the text does not fit without them. -/
theorem Written.bracketed (written : Written level text expr) (below : least ≤ 4) {brackets : Bool}
    (bare : brackets = false → Written least text expr) : Written least (bracketed brackets text) (grouped brackets expr) := by
  cases brackets with
  | true => exact written.outer.group.written.down below
  | false => exact bare rfl

theorem Written.fit (written : Written level text expr) (operator : Operator) :
    Written (operator.precedence + 1) (Expr.bracketed (level ≤ operator.precedence) text)
      (grouped (level ≤ operator.precedence) expr) := by
  obtain ⟨-, most⟩ := isTier_precedence operator
  refine written.bracketed (Nat.succ_le_succ most) ?_
  intro bare
  exact written.down (Nat.lt_of_not_le (of_decide_eq_false bare))

/-- One more operator after a text so far, which is bracketed if it binds looser. -/
theorem Written.extend (written : Written level text expr) (operator : Operator) {operand : List Char} {last : Expr}
    (written' : Written (operator.precedence + 1) operand last) :
    ∃ head terms, joined head terms = grouped (level < operator.precedence) expr ∧ Written operator.precedence
      (Expr.bracketed (level < operator.precedence) text ++ ' ' :: operator.symbol :: ' ' :: operand)
      (joined head (terms ++ [(operator, last)])) := by
  have tier := isTier_precedence operator
  have chain : ∃ head terms, joined head terms = grouped (level < operator.precedence) expr ∧
      WrittenChain operator.precedence (Expr.bracketed (level < operator.precedence) text) head terms := by
    by_cases equal : level = operator.precedence
    · subst equal
      obtain ⟨head, terms, rfl, chain⟩ := written.chain tier
      rw [decide_eq_false (Nat.lt_irrefl _)]
      exact ⟨head, terms, rfl, chain⟩
    · have same : decide (level < operator.precedence) = decide (level ≤ operator.precedence) :=
        decide_eq_decide.mpr ⟨Nat.le_of_lt, fun below => Nat.lt_of_le_of_ne below equal⟩
      rw [same]
      exact ⟨_, [], rfl, (written.fit operator).operand⟩
  obtain ⟨head, terms, same, chain⟩ := chain
  exact ⟨head, terms, same, (chain.snoc rfl written').written tier⟩

/-- The brackets of a chain and its text after one more operator. -/
theorem chars_step (binding : Nat) (text : List Char) (operator : Operator) (operand : Expr)
    (terms : List (Operator × Expr)) :
    List.replicate (opened binding ((operator, operand) :: terms)) '(' ++ text ++
        termsChars binding ((operator, operand) :: terms) =
      List.replicate (opened operator.precedence terms) '(' ++
        (Expr.bracketed (binding < operator.precedence) text ++ ' ' :: operator.symbol :: ' ' ::
          Expr.bracketed (operand.binding ≤ operator.precedence) operand.chars) ++
        termsChars operator.precedence terms := by
  simp only [opened, termsChars]
  by_cases looser : binding < operator.precedence
  · simp [looser, Expr.bracketed, Nat.add_comm 1, List.replicate_succ']
  · simp [looser, Expr.bracketed]

private theorem exists_writtenLater {Reads : Expr → Expr → Prop} (arguments : List Expr)
    (written : ∀ argument ∈ arguments, ∃ again, Written 0 argument.chars again ∧ Reads argument again) :
    ∃ others, WrittenLater (laterChars arguments) others ∧ List.Forall₂ Reads arguments others := by
  induction arguments with
  | nil => exact ⟨[], writtenLater_nil, .nil⟩
  | cons argument arguments ih =>
    obtain ⟨⟨again, first, reads⟩, later⟩ := List.forall_mem_cons.mp written
    obtain ⟨others, rest, all⟩ := ih later
    exact ⟨again :: others, rest.cons first, .cons reads all⟩

theorem exists_writtenArguments {Reads : Expr → Expr → Prop} (arguments : List Expr)
    (written : ∀ argument ∈ arguments, ∃ again, Written 0 argument.chars again ∧ Reads argument again) :
    ∃ others, WrittenArguments (argumentsChars arguments) others ∧ List.Forall₂ Reads arguments others := by
  cases arguments with
  | nil => exact ⟨[], writtenArguments_nil, .nil⟩
  | cons argument arguments =>
    obtain ⟨⟨again, first, reads⟩, later⟩ := List.forall_mem_cons.mp written
    obtain ⟨others, rest, all⟩ := exists_writtenLater arguments later
    exact ⟨again :: others, rest.arguments first, .cons reads all⟩

end Formula.Grammar
