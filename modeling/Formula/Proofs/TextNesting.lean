import Formula.Proofs.Spelling

/-! The nesting limit and the brackets that the printer adds. A text of the grammar compiles
under exactly the limits that it nests within. The depth of a formula does not bound that:
one chain of leaves may be written with any number of brackets, one inside the other. Where
no part of a chain has more than some number of them around it, so many for each level of
the formula are enough. -/

namespace Formula

open Grammar

namespace Expr

mutual
/-- Whether a chain is written with no more than some brackets of its own around each part. -/
def BracketsWithin (most : Nat) : Expr → Prop
  | .literal _ | .field _ => True
  | .chain head terms => opened head.binding terms ≤ most ∧ head.BracketsWithin most ∧ termsBracketsWithin most terms
  | .comparison left _ right => left.BracketsWithin most ∧ right.BracketsWithin most
  | .group inner => inner.BracketsWithin most
  | .call _ arguments => argumentsBracketsWithin most arguments
termination_by structural expr => expr

def termsBracketsWithin (most : Nat) : List (Operator × Expr) → Prop
  | [] => True
  | (operator, operand) :: terms =>
    (decide (operand.binding ≤ operator.precedence)).toNat + opened operator.precedence terms ≤ most ∧
      operand.BracketsWithin most ∧ termsBracketsWithin most terms
termination_by structural terms => terms

def argumentsBracketsWithin (most : Nat) : List Expr → Prop
  | [] => True
  | argument :: arguments => argument.BracketsWithin most ∧ argumentsBracketsWithin most arguments
termination_by structural arguments => arguments
end

section Bound

variable {most : Nat}

private theorem part_nesting_le {nesting brackets depth deepest : Nat} (part : nesting ≤ most * depth)
    (within : brackets ≤ most) (level : depth ≤ deepest) : nesting + brackets ≤ most * (deepest + 1) := by
  rw [Nat.mul_add_one]
  exact Nat.add_le_add (part.trans (Nat.mul_le_mul_left most level)) within

private theorem toNat_le_of_one_le (some : 1 ≤ most) (brackets : Bool) : brackets.toNat ≤ most :=
  (Bool.toNat_le brackets).trans some

mutual
/-- A bracket or a call is a level of the formula, or one of the brackets of a chain. -/
theorem textNesting_le (some : 1 ≤ most) : (expr : Expr) → expr.BracketsWithin most → expr.textNesting ≤ most * expr.depth
  | .literal _, _ | .field _, _ => Nat.zero_le _
  | .chain head terms, ⟨opening, first, later⟩ => by
    have first := textNesting_le some head first
    have later := termsTextNesting_le some terms later
    refine Nat.max_le.mpr ⟨part_nesting_le first opening (Nat.le_max_left _ _), later.trans ?_⟩
    exact Nat.mul_le_mul_left most (Nat.succ_le_succ (Nat.le_max_right _ _))
  | .comparison left _ right, ⟨first, second⟩ => by
    have first := textNesting_le some left first
    have second := textNesting_le some right second
    exact Nat.max_le.mpr ⟨part_nesting_le first (toNat_le_of_one_le some _) (Nat.le_max_left _ _),
      part_nesting_le second (toNat_le_of_one_le some _) (Nat.le_max_right _ _)⟩
  | .group inner, within => part_nesting_le (textNesting_le some inner within) some (Nat.le_refl _)
  | .call _ arguments, within => part_nesting_le (argumentsTextNesting_le some arguments within) some (Nat.le_refl _)
termination_by structural expr => expr

theorem termsTextNesting_le (some : 1 ≤ most) : (terms : List (Operator × Expr)) → termsBracketsWithin most terms →
    termsTextNesting terms ≤ most * (termsDepth terms + 1)
  | [], _ => Nat.zero_le _
  | (operator, operand) :: terms, ⟨brackets, first, later⟩ => by
    have first := textNesting_le some operand first
    have later := termsTextNesting_le some terms later
    rw [termsTextNesting, Nat.add_assoc]
    refine Nat.max_le.mpr ⟨part_nesting_le first brackets (Nat.le_max_left _ _), later.trans ?_⟩
    exact Nat.mul_le_mul_left most (Nat.succ_le_succ (Nat.le_max_right _ _))
termination_by structural terms => terms

theorem argumentsTextNesting_le (some : 1 ≤ most) : (arguments : List Expr) → argumentsBracketsWithin most arguments →
    argumentsTextNesting arguments ≤ most * argumentsDepth arguments
  | [], _ => Nat.zero_le _
  | argument :: arguments, ⟨first, later⟩ => by
    have first := textNesting_le some argument first
    have later := argumentsTextNesting_le some arguments later
    exact Nat.max_le.mpr ⟨first.trans (Nat.mul_le_mul_left most (Nat.le_max_left _ _)),
      later.trans (Nat.mul_le_mul_left most (Nat.le_max_right _ _))⟩
termination_by structural arguments => arguments
end

end Bound

end Expr

/-- The text of a formula compiles to one formula under all limits that it nests within, and
is refused for its nesting under all others. -/
theorem exists_compile_text {expr : Expr} (spellable : expr.Spellable) : ∃ again, ∀ limit,
    (expr.textNesting ≤ limit → compile limit expr.text = .ok again) ∧
    (limit < expr.textNesting →
      ∃ offset, compile limit expr.text = .error ⟨.tooDeep limit, .ofOffset expr.text.toList offset⟩) := by
  obtain ⟨again, rendered⟩ := exists_rendered expr spellable
  obtain ⟨phrase, spaced, finite, rfl⟩ := rendered.written.outer
  have text : expr.text.toList = expr.chars := String.toList_ofList
  have nesting : phrase.nesting = expr.textNesting := phrase.nesting_expr.symm.trans rendered.nesting
  rw [← text] at spaced
  rw [← nesting]
  refine ⟨phrase.expr, fun limit => ⟨?_, ?_⟩⟩
  · intro fits
    exact compileChars_eq_ok_iff.mpr ⟨phrase, spaced, fits, finite, rfl⟩
  · intro deep
    obtain ⟨offset, stops, -⟩ := exists_tooDeep? phrase spaced deep
    exact ⟨offset, compileChars_of_tooDeep stops⟩

/-- The text of a formula made by hand is refused for its nesting alone, under the limits
below the one that can be told from the formula. No limit is needed above the depth times
the most brackets of one chain around one part. -/
theorem compile_text_textNesting (expr : Expr) (spellable : expr.Spellable) :
    (∃ again, ∀ limit,
      (expr.textNesting ≤ limit → compile limit expr.text = .ok again) ∧
      (limit < expr.textNesting →
        ∃ offset, compile limit expr.text = .error ⟨.tooDeep limit, .ofOffset expr.text.toList offset⟩)) ∧
    ∀ most, 1 ≤ most → expr.BracketsWithin most →
      ∀ limit, most * expr.depth ≤ limit → ∃ again, compile limit expr.text = .ok again := by
  have compiled := exists_compile_text spellable
  refine ⟨compiled, ?_⟩
  intro most some within limit enough
  obtain ⟨again, compiled⟩ := compiled
  exact ⟨again, (compiled limit).1 ((Expr.textNesting_le some expr within).trans enough)⟩

/-- The product brackets the sum, once on two levels. -/
theorem compile_text_textNesting_sum :
    (∃ again, compile 2 "(a + 2) * 3" = .ok again) ∧
    ∃ offset, compile 0 "(a + 2) * 3" = .error ⟨.tooDeep 0, .ofOffset "(a + 2) * 3".toList offset⟩ := by
  have field : IsName "a".toList := .mk rfl nofun
  have two : (2 : Float).isFinite = true := by decide
  have three : (3 : Float).isFinite = true := by decide
  obtain ⟨⟨again, exact⟩, bound⟩ := compile_text_textNesting
    (.chain (.field "a") [(.add, .literal (.number 2)), (.multiply, .literal (.number 3))])
    ⟨nofun, field, ⟨two, three, trivial⟩, nofun⟩
  have within : Expr.BracketsWithin 1 (.chain (.field "a") [(.add, .literal (.number 2)), (.multiply, .literal (.number 3))]) :=
    ⟨by decide, trivial, by decide, trivial, by decide, trivial, trivial⟩
  exact ⟨bound 1 (Nat.le_refl 1) within 2 (by decide), (exact 0).2 (by decide)⟩

namespace Expr

def turns : Nat → List (Operator × Expr)
  | 0 => []
  | n + 1 => (.add, .field "a") :: (.multiply, .field "a") :: turns n

/-- A chain of leaves that is written with a bracket for each of its products. -/
def rising (n : Nat) : Expr := .chain (.field "a") (turns n)

private theorem opened_turns (n : Nat) {binding : Nat} (some : 1 ≤ binding) : opened binding (turns n) = n := by
  induction n generalizing binding with
  | zero => rfl
  | succ n ih =>
    have unopened : ¬ binding < Operator.add.precedence := Nat.not_lt_of_le some
    rw [turns, opened, opened, if_neg unopened, if_pos (by decide), ih (by decide)]
    omega

theorem spellable_rising (n : Nat) : (rising (n + 1)).Spellable := by
  have field : IsName "a".toList := .mk rfl nofun
  have terms : termsOrderly .finites (turns (n + 1)) := by
    induction n with
    | zero => exact ⟨field, field, trivial⟩
    | succ n ih => exact ⟨field, field, ih⟩
  exact ⟨nofun, field, terms, nofun⟩

theorem depth_rising (n : Nat) : (rising (n + 1)).depth = 2 := by
  have terms : ∀ n, termsDepth (turns (n + 1)) = 1 := by
    intro n
    induction n with
    | zero => rfl
    | succ n ih =>
      change max 1 (max 1 (termsDepth (turns (n + 1)))) = 1
      rw [ih]
      rfl
  change max 1 (termsDepth (turns (n + 1))) + 1 = 2
  rw [terms]
  rfl

theorem le_textNesting_rising (n : Nat) : n ≤ (rising n).textNesting := by
  have opening : opened 4 (turns n) = n := opened_turns n (by decide)
  change n ≤ max (0 + opened 4 (turns n)) _
  rw [opening, Nat.zero_add]
  exact Nat.le_max_left _ _

end Expr

/-- Every limit refuses the text of some formula of depth two for its nesting. -/
theorem compile_text_rising (limit : Nat) : ∃ offset, compile limit (Expr.rising (limit + 1)).text =
    .error ⟨.tooDeep limit, .ofOffset (Expr.rising (limit + 1)).text.toList offset⟩ := by
  obtain ⟨again, compiled⟩ := exists_compile_text (Expr.spellable_rising limit)
  exact (compiled limit).2 (Expr.le_textNesting_rising (limit + 1))

/-- The default limit is far above the depth of this formula and refuses its text. -/
theorem compile_text_rising_default :
    (Expr.rising 129).Spellable ∧ (Expr.rising 129).depth = 2 ∧ 2 ≤ defaultLimit ∧
      ∃ offset, compile defaultLimit (Expr.rising 129).text =
        .error ⟨.tooDeep defaultLimit, .ofOffset (Expr.rising 129).text.toList offset⟩ :=
  ⟨Expr.spellable_rising 128, Expr.depth_rising 128, by decide, compile_text_rising 128⟩

end Formula
