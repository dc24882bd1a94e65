import Formula.Evaluator
import Formula.Proofs.Meaning

/-! Formulas without brackets, evaluated with no regard to the grammar: as long as operators
are left, the leftmost of those that bind tightest is replaced, with the number before it and
the one after it, by what it makes of them. The reader keeps one chain open for each precedence
instead. What waits in a chain is a function of the number that comes next, so both ways apply
the same operators to the same numbers. -/

namespace Formula

open Grammar

def strongest (terms : List (Operator × Float)) : Nat :=
  terms.foldr (fun term most => max term.1.precedence most) 0

/-- The leftmost operator of a precedence and its neighbours replaced by its result. -/
def replaceLeftmost (level : Nat) (x : Float) : List (Operator × Float) → Float × List (Operator × Float)
  | [] => (x, [])
  | (operator, y) :: terms =>
    if operator.precedence = level then (operator.apply x y, terms)
    else
      let next := replaceLeftmost level y terms
      (x, (operator, next.1) :: next.2)

private theorem exists_strongest {terms : List (Operator × Float)} (some : terms ≠ []) :
    ∃ term ∈ terms, term.1.precedence = strongest terms := by
  induction terms with
  | nil => exact absurd rfl some
  | cons term terms ih =>
    change ∃ other ∈ term :: terms, other.1.precedence = max term.1.precedence (strongest terms)
    by_cases below : strongest terms ≤ term.1.precedence
    · exact ⟨term, List.mem_cons_self, (Nat.max_eq_left below).symm⟩
    · have stronger : term.1.precedence ≤ strongest terms := by omega
      have some : terms ≠ [] := by
        rintro rfl
        exact below (Nat.zero_le _)
      obtain ⟨other, member, same⟩ := ih some
      exact ⟨other, List.mem_cons_of_mem term member, same.trans (Nat.max_eq_right stronger).symm⟩

private theorem le_strongest {terms : List (Operator × Float)} : ∀ term ∈ terms, term.1.precedence ≤ strongest terms := by
  induction terms with
  | nil => nofun
  | cons term terms ih =>
    refine List.forall_mem_cons.mpr ⟨Nat.le_max_left _ _, ?_⟩
    intro other member
    exact Nat.le_trans (ih other member) (Nat.le_max_right _ _)

private theorem length_replaceLeftmost {level : Nat} (x : Float) {terms : List (Operator × Float)}
    (present : ∃ term ∈ terms, term.1.precedence = level) :
    (replaceLeftmost level x terms).2.length + 1 = terms.length := by
  induction terms generalizing x with
  | nil =>
    obtain ⟨_, member, _⟩ := present
    cases member
  | cons term terms ih =>
    obtain ⟨operator, y⟩ := term
    simp only [replaceLeftmost]
    split
    · rfl
    · next other =>
      obtain ⟨term, member, same⟩ := present
      rcases List.mem_cons.mp member with rfl | member
      · exact absurd same other
      · simp only [List.length_cons, ih y ⟨term, member, same⟩]

def reduce (x : Float) (terms : List (Operator × Float)) : Float :=
  if terms = [] then x
  else
    let next := replaceLeftmost (strongest terms) x terms
    reduce next.1 next.2
termination_by terms.length
decreasing_by
  have shorter := length_replaceLeftmost x (exists_strongest ‹_›)
  omega

def merge (level : Nat) (x : Float) : List (Operator × Float) → Float × List (Operator × Float)
  | [] => (x, [])
  | (operator, y) :: terms =>
    if operator.precedence = level then merge level (operator.apply x y) terms
    else
      let next := merge level y terms
      (x, (operator, next.1) :: next.2)

private theorem merge_other {level : Nat} (x : Float) {terms : List (Operator × Float)}
    (other : ∀ term ∈ terms, term.1.precedence ≠ level) : merge level x terms = (x, terms) := by
  induction terms generalizing x with
  | nil => rfl
  | cons term terms ih =>
    obtain ⟨first, later⟩ := List.forall_mem_cons.mp other
    rw [merge, if_neg first, ih _ later]

private theorem merge_replaceLeftmost (level : Nat) (x : Float) (terms : List (Operator × Float)) :
    merge level (replaceLeftmost level x terms).1 (replaceLeftmost level x terms).2 = merge level x terms := by
  induction terms generalizing x with
  | nil => rfl
  | cons term terms ih =>
    obtain ⟨operator, y⟩ := term
    simp only [replaceLeftmost, merge]
    split
    · rfl
    · next other => rw [merge, if_neg other, ih]

private theorem precedence_replaceLeftmost {level bound : Nat} (x : Float) {terms : List (Operator × Float)}
    (within : ∀ term ∈ terms, term.1.precedence ≤ bound) :
    ∀ term ∈ (replaceLeftmost level x terms).2, term.1.precedence ≤ bound := by
  induction terms generalizing x with
  | nil => nofun
  | cons term terms ih =>
    obtain ⟨first, later⟩ := List.forall_mem_cons.mp within
    simp only [replaceLeftmost]
    split
    · exact later
    · exact List.forall_mem_cons.mpr ⟨first, ih _ later⟩

/-- Powers first, then products, then sums, where what waits for the next number of a power, a
product or a sum is a function of that number. -/
def mergeAll (sum product power : Float → Float) (x : Float) (terms : List (Operator × Float)) : Float :=
  let powers := merge 3 (power x) terms
  let products := merge 2 (product powers.1) powers.2
  (merge 1 (sum products.1) products.2).1

section Next

variable (sum product power : Float → Float) (x y : Float) (terms : List (Operator × Float)) {operator : Operator}

private theorem mergeAll_sum (tier : operator.precedence = 1) : mergeAll sum product power x ((operator, y) :: terms) =
    mergeAll (operator.apply (sum (product (power x)))) id id y terms := by
  simp [mergeAll, merge, tier]

private theorem mergeAll_product (tier : operator.precedence = 2) : mergeAll sum product power x ((operator, y) :: terms) =
    mergeAll sum (operator.apply (product (power x))) id y terms := by
  simp [mergeAll, merge, tier]

private theorem mergeAll_power (tier : operator.precedence = 3) : mergeAll sum product power x ((operator, y) :: terms) =
    mergeAll sum product (operator.apply (power x)) y terms := by
  simp [mergeAll, merge, tier]

end Next

private theorem mergeAll_replaceLeftmost (x : Float) {terms : List (Operator × Float)} (some : terms ≠ []) :
    mergeAll id id id (replaceLeftmost (strongest terms) x terms).1 (replaceLeftmost (strongest terms) x terms).2 =
      mergeAll id id id x terms := by
  obtain ⟨term, -, same⟩ := exists_strongest some
  obtain ⟨least, most⟩ : IsTier (strongest terms) := same ▸ isTier_precedence term.1
  have within := @le_strongest terms
  have within' := @precedence_replaceLeftmost (strongest terms) _ x terms within
  have first := merge_replaceLeftmost (strongest terms) x terms
  have skip (level : Nat) (above : strongest terms < level) :
      merge level x terms = (x, terms) ∧
        merge level (replaceLeftmost (strongest terms) x terms).1 (replaceLeftmost (strongest terms) x terms).2 =
          replaceLeftmost (strongest terms) x terms := by
    constructor
    · exact merge_other x fun term member => Nat.ne_of_lt (Nat.lt_of_le_of_lt (within term member) above)
    · exact merge_other _ fun term member => Nat.ne_of_lt (Nat.lt_of_le_of_lt (within' term member) above)
  generalize strongest terms = level at *
  match level, least, most with
  | 3, _, _ => simp only [mergeAll, id, first]
  | 2, _, _ =>
    obtain ⟨before, after⟩ := skip 3 (by decide)
    simp only [mergeAll, id, before, after, first]
  | 1, _, _ =>
    obtain ⟨before, after⟩ := skip 3 (by decide)
    obtain ⟨before', after'⟩ := skip 2 (by decide)
    simp only [mergeAll, id, before, after, before', after', first]

theorem reduce_eq_mergeAll (x : Float) (terms : List (Operator × Float)) :
    reduce x terms = mergeAll id id id x terms := by
  fun_induction reduce x terms with
  | case1 x => rfl
  | case2 x terms some next ih => rw [ih, mergeAll_replaceLeftmost x some]

inductive Leaf where
  | number (numeral : Numeral)
  | name (letters : List Char)

structure Operand where
  sign : Option Operator
  leaf : Leaf

/-- Operands with operators between them, and no brackets. -/
structure Flat where
  first : Operand
  later : List (Operator × Operand)

namespace Leaf

def Valid : Leaf → Prop
  | number numeral => IsNumber numeral ∧ numeral.toFloat.isFinite = true
  | name letters => IsName letters

def word : Leaf → Word
  | number numeral => .number numeral
  | name letters => .name letters

def value (numbers : String → Float) : Leaf → Float
  | number numeral => numeral.toFloat
  | name letters => numbers (.ofList letters)

def expr : Leaf → Expr
  | number numeral => .literal (.number numeral.toFloat)
  | name letters => .field (.ofList letters)

end Leaf

namespace Operand

structure Valid (operand : Operand) : Prop where
  sign : ∀ sign ∈ operand.sign, sign = .add ∨ sign = .subtract
  leaf : operand.leaf.Valid

def words (operand : Operand) : List Word := signWords operand.sign ++ [operand.leaf.word]

def value (numbers : String → Float) (operand : Operand) : Float :=
  match operand.sign with
  | none => operand.leaf.value numbers
  | some sign => sign.apply 0 (operand.leaf.value numbers)

def expr (operand : Operand) : Expr := .signed operand.sign operand.leaf.expr

end Operand

namespace Flat

structure Valid (flat : Flat) : Prop where
  first : flat.first.Valid
  later : ∀ term ∈ flat.later, term.2.Valid

def operands (flat : Flat) : List Operand := flat.first :: flat.later.map Prod.snd

def words (flat : Flat) : List Word :=
  flat.first.words ++ flat.later.flatMap fun term => .operator term.1 :: term.2.words

def value (numbers : String → Float) (flat : Flat) : Float :=
  reduce (flat.first.value numbers) (flat.later.map fun term => (term.1, term.2.value numbers))

end Flat

namespace Expr

private theorem extend_eq_joined (before : Waiting) (last : Expr) :
    ∃ head earlier, ∀ terms, extend before last terms = joined head (earlier ++ terms) := by
  induction before generalizing last with
  | nil => exact ⟨last, [], extend_nil last⟩
  | cons operand before ih =>
    obtain ⟨head, earlier, same⟩ := ih operand.1
    refine ⟨head, earlier ++ [(operand.2, last)], ?_⟩
    intro terms
    rw [List.append_assoc]
    exact same ((operand.2, last) :: terms)

/-- The number of a chain of waiting operands as a function of that of the last operand. -/
def Carries (scope : Scope) (before : Waiting) (f : Float → Float) : Prop :=
  ∀ last y, last.number scope = .ok y → (before.close last).number scope = .ok (f y)

private theorem carries_nil (scope : Scope) : Carries scope [] id := fun _ _ number => number

theorem Carries.cons {scope : Scope} {before : Waiting} {f : Float → Float} (carries : Carries scope before f)
    {operand : Expr} {x : Float} (number : operand.number scope = .ok x) (operator : Operator) :
    Carries scope ((operand, operator) :: before) (operator.apply (f x)) := by
  intro last y number'
  obtain ⟨head, earlier, same⟩ := extend_eq_joined before operand
  have whole : Waiting.close ((operand, operator) :: before) last = joined head (earlier ++ [(operator, last)]) :=
    same [(operator, last)]
  have closed : before.close operand = joined head earlier := by
    have closed := same []
    rwa [List.append_nil] at closed
  have left := carries operand x number
  rw [closed] at left
  rw [whole]
  apply number_of_eval
  rw [eval_joined_snoc, left, number']
  rfl

/-- The chains that are open in a level of brackets, as functions of the number that comes next. -/
structure ChainsCarry (scope : Scope) (before : Infix) (sum product power : Float → Float) : Prop where
  sum : Carries scope before.sum sum
  product : Carries scope before.product product
  power : Carries scope before.power power

namespace ChainsCarry

variable {scope : Scope} {before : Infix} {sum product power : Float → Float} {operand : Expr} {x : Float}

theorem close (carry : ChainsCarry scope before sum product power) (number : operand.number scope = .ok x) :
    (before.close operand).number scope = .ok (sum (product (power x))) :=
  carry.sum _ _ (carry.product _ _ (carry.power _ _ number))

private theorem pushSum (carry : ChainsCarry scope before sum product power) (number : operand.number scope = .ok x)
    {operator : Operator} (tier : operator.precedence = 1) :
    ChainsCarry scope (before.push operand operator) (operator.apply (sum (product (power x)))) id id := by
  have closed := carry.product _ _ (carry.power _ _ number)
  cases operator with
  | add | subtract => exact ⟨carry.sum.cons closed _, carries_nil scope, carries_nil scope⟩
  | multiply | divide | modulo | power => cases tier

private theorem pushProduct (carry : ChainsCarry scope before sum product power) (number : operand.number scope = .ok x)
    {operator : Operator} (tier : operator.precedence = 2) :
    ChainsCarry scope (before.push operand operator) sum (operator.apply (product (power x))) id := by
  have closed := carry.power _ _ number
  cases operator with
  | multiply | divide | modulo => exact ⟨carry.sum, carry.product.cons closed _, carries_nil scope⟩
  | add | subtract | power => cases tier

private theorem pushPower (carry : ChainsCarry scope before sum product power) (number : operand.number scope = .ok x)
    {operator : Operator} (tier : operator.precedence = 3) :
    ChainsCarry scope (before.push operand operator) sum product (operator.apply (power x)) := by
  cases operator with
  | power => exact ⟨carry.sum, carry.product, carry.power.cons number _⟩
  | add | subtract | multiply | divide | modulo => cases tier

end ChainsCarry

/-- The formula of some operands and of those that wait before them. -/
def closeOver (before : Infix) (first : Operand) : List (Operator × Operand) → Expr
  | [] => before.close first.expr
  | (operator, operand) :: later => closeOver (before.push first.expr operator) operand later

section Operands

variable {scope : Scope} {numbers : String → Float}

private theorem number_operand {operand : Operand} (known : ∀ letters, operand.leaf = .name letters →
    scope.value? (.ofList letters) = some (.number (numbers (.ofList letters)))) :
    operand.expr.number scope = .ok (operand.value numbers) := by
  obtain ⟨sign, leaf⟩ := operand
  have alone : leaf.expr.number scope = .ok (leaf.value numbers) := by
    cases leaf with
    | number numeral => rfl
    | name letters =>
      have found : (field (.ofList letters)).eval scope = .ok (.number (numbers (.ofList letters))) := by
        rw [eval_field, known letters rfl]
      rw [Leaf.expr, Expr.number, found]
      rfl
  cases sign with
  | none => exact alone
  | some sign =>
    change (chain (.literal (.number 0)) [(sign, leaf.expr)]).number scope = _
    have zero : (literal (.number 0)).number scope = pure 0 := rfl
    rw [number_chain, zero, pure_bind, evalTerms_cons, alone]
    rfl

private theorem number_closeOver {before : Infix} {sum product power : Float → Float}
    (carry : ChainsCarry scope before sum product power) {first : Operand} {later : List (Operator × Operand)}
    (number : first.expr.number scope = .ok (first.value numbers))
    (each : ∀ term ∈ later, term.2.expr.number scope = .ok (term.2.value numbers)) :
    (closeOver before first later).number scope = .ok (mergeAll sum product power (first.value numbers)
      (later.map fun term => (term.1, term.2.value numbers))) := by
  induction later generalizing before sum product power first with
  | nil => exact carry.close number
  | cons term later ih =>
    obtain ⟨operator, operand⟩ := term
    obtain ⟨next, each⟩ := List.forall_mem_cons.mp each
    obtain ⟨least, most⟩ := isTier_precedence operator
    simp only [closeOver, List.map_cons]
    match tier : operator.precedence, least, most with
    | 1, _, _ => rw [mergeAll_sum _ _ _ _ _ _ tier, ih (carry.pushSum number tier) next each]
    | 2, _, _ => rw [mergeAll_product _ _ _ _ _ _ tier, ih (carry.pushProduct number tier) next each]
    | 3, _, _ => rw [mergeAll_power _ _ _ _ _ _ tier, ih (carry.pushPower number tier) next each]

end Operands

end Expr

namespace Flat

open Formula.Expr

theorem derives_operand {operand : Operand} (valid : operand.Valid) : Derives 4 operand.words operand.expr := by
  obtain ⟨sign, leaf⟩ := operand
  have isSign : ∀ operator ∈ sign, operator.isSign = true := by
    intro operator member
    rcases valid.sign operator member with rfl | rfl <;> rfl
  cases leaf with
  | number numeral => exact Derives.signed isSign (.number numeral valid.leaf.1)
  | name letters => exact Derives.signed isSign (.field letters valid.leaf)

private theorem derives_closeOver {before : Infix} {words : List Word} (read : InfixRead before words) {first : Operand}
    {later : List (Operator × Operand)} (valid : first.Valid) (each : ∀ term ∈ later, term.2.Valid) :
    Derives 1 (words ++ Flat.words ⟨first, later⟩) (closeOver before first later) := by
  induction later generalizing before words first with
  | nil =>
    have derives := read.close (derives_operand valid)
    simpa only [closeOver, Flat.words, List.flatMap_nil, List.append_nil] using derives
  | cons term later ih =>
    obtain ⟨next, each⟩ := List.forall_mem_cons.mp each
    have derives := ih (read.push (derives_operand valid) term.1) next each
    simpa only [closeOver, Flat.words, List.flatMap_cons, List.append_assoc, List.cons_append, List.nil_append]
      using derives

theorem mem_words {flat : Flat} {word : Word} (member : word ∈ flat.words) :
    (∃ operator, word = .operator operator) ∨ ∃ operand ∈ flat.operands, word = operand.leaf.word := by
  have inOperand : ∀ {operand : Operand}, word ∈ operand.words →
      (∃ operator, word = .operator operator) ∨ word = operand.leaf.word := by
    intro operand member
    rcases List.mem_append.mp member with sign | leaf
    · cases same : operand.sign with
      | none => simp [same, signWords] at sign
      | some operator => exact .inl ⟨operator, by simpa [same, signWords] using sign⟩
    · exact .inr (List.mem_singleton.mp leaf)
  rcases List.mem_append.mp member with first | later
  · exact (inOperand first).imp_right fun same => ⟨flat.first, List.mem_cons_self, same⟩
  · obtain ⟨term, within, member⟩ := List.mem_flatMap.mp later
    rcases List.mem_cons.mp member with same | member
    · exact .inl ⟨term.1, same⟩
    · exact (inOperand member).imp_right fun same =>
        ⟨term.2, List.mem_cons_of_mem _ (List.mem_map_of_mem within), same⟩

theorem Valid.operands {flat : Flat} (valid : flat.Valid) : ∀ operand ∈ flat.operands, operand.Valid := by
  refine List.forall_mem_cons.mpr ⟨valid.first, ?_⟩
  intro operand member
  obtain ⟨term, within, rfl⟩ := List.mem_map.mp member
  exact valid.later term within

theorem Valid.finite {flat : Flat} (valid : flat.Valid) : Finite flat.words := by
  intro numeral member
  rcases mem_words member with ⟨operator, same⟩ | ⟨operand, within, same⟩
  · cases same
  · have leaf := (valid.operands operand within).leaf
    cases found : operand.leaf with
    | number other =>
      rw [found] at same leaf
      cases same
      exact leaf.2
    | name letters =>
      rw [found] at same
      cases same

theorem balanced_of_plain {words : List Word} (plain : ∀ word ∈ words, word ≠ .opening ∧ word ≠ .closing) :
    Balanced words 0 := by
  induction words with
  | nil => exact balanced_nil
  | cons word words ih =>
    obtain ⟨⟨opening, closing⟩, later⟩ := List.forall_mem_cons.mp plain
    exact (balanced_plain word opening closing).append (ih later)

theorem balanced (flat : Flat) : Balanced flat.words 0 := by
  apply balanced_of_plain
  intro word member
  rcases mem_words member with ⟨operator, rfl⟩ | ⟨operand, -, rfl⟩
  · simp
  · cases operand.leaf with
    | number | name => simp [Leaf.word]

theorem compile_eq_ok {flat : Flat} (valid : flat.Valid) {text : String} (spaced : Spaced flat.words text.toList)
    (limit : Nat) : compile limit text = .ok (closeOver {} flat.first flat.later) := by
  obtain ⟨phrase, words, same⟩ := (derives_closeOver infixRead_nil valid.first valid.later).alone
  have words : phrase.words = flat.words := words
  have shallow : 0 + phrase.nesting ≤ 0 := by
    apply And.left
    rw [← phrase.balanced 0 0 0 (Nat.le_refl 0), words, flat.balanced 0 0 0 (Nat.le_refl 0)]
    exact ⟨Nat.le_refl 0, rfl⟩
  refine compileChars_eq_ok_iff.mpr ⟨phrase, ?_, by omega, ?_, same⟩
  · rwa [words]
  · rw [words]
    exact valid.finite

end Flat

private theorem eval_of_number {scope : Scope} {expr : Expr} {x : Float} (number : expr.number scope = .ok x) :
    expr.eval scope = .ok (.number x) := by
  simp only [Expr.number] at number
  cases evaluated : expr.eval scope with
  | error error =>
    rw [evaluated] at number
    cases number
  | ok value =>
    rw [evaluated] at number
    cases value with
    | number y =>
      cases number
      rfl
    | boolean | text | null => cases number

/-- The value of a formula without brackets, whatever functions there are, is the number that
replacing its operators one by one leaves. -/
theorem evaluateText_flat (flat : Flat) (valid : flat.Valid) (text : String) (spaced : Spaced flat.words text.toList)
    (value? : String → Option Value) (numbers : String → Float)
    (known : ∀ operand ∈ flat.operands, ∀ letters, operand.leaf = .name letters →
      value? (.ofList letters) = some (.number (numbers (.ofList letters)))) :
    evaluateText value? text = .ok (.number (flat.value numbers)) ∧
      ∀ evaluator : Evaluator, evaluator.evaluateText text value? = .ok (.number (flat.value numbers)) := by
  have evaluated (function? : String → Option Function) (limit : Nat) :
      evaluateIn ⟨value?, function?⟩ limit text = .ok (.number (flat.value numbers)) := by
    have number : ∀ operand ∈ flat.operands, operand.expr.number ⟨value?, function?⟩ = .ok (operand.value numbers) :=
      fun operand member => Expr.number_operand (known operand member)
    obtain ⟨first, later⟩ := List.forall_mem_cons.mp number
    have carry : Expr.ChainsCarry ⟨value?, function?⟩ {} id id id :=
      ⟨Expr.carries_nil _, Expr.carries_nil _, Expr.carries_nil _⟩
    have whole := Expr.number_closeOver carry first fun term member => later term.2 (List.mem_map_of_mem member)
    rw [← reduce_eq_mergeAll] at whole
    simp only [evaluateIn, Flat.compile_eq_ok valid spaced, eval_of_number whole]
    rfl
  exact ⟨evaluated _ _, fun evaluator => evaluated _ _⟩

/-- Differences are taken from left to right, and a sign after a minus belongs to its operand. -/
theorem evaluateText_flat_differences :
    evaluateText (fun _ => some (.number 3)) "8 - 4 - -x" = .ok (.number 7) := by
  have digit (c : Char) (isDigit : c.isDigit = true) (finite : (Numeral.toFloat ⟨[c], [], []⟩).isFinite = true) :
      Operand.Valid ⟨none, .number ⟨[c], [], []⟩⟩ :=
    ⟨nofun, ⟨.whole ⟨nofun, List.forall_mem_singleton.mpr isDigit⟩, .absent⟩, finite⟩
  have x : Operand.Valid ⟨some .subtract, .name ['x']⟩ := by
    refine ⟨?_, .mk rfl nofun⟩
    intro sign member
    cases member
    exact .inr rfl
  have valid : Flat.Valid ⟨⟨none, .number ⟨['8'], [], []⟩⟩, [(.subtract, ⟨none, .number ⟨['4'], [], []⟩⟩),
      (.subtract, ⟨some .subtract, .name ['x']⟩)]⟩ :=
    ⟨digit '8' rfl (by decide +kernel), List.forall_mem_cons.mpr ⟨digit '4' rfl (by decide +kernel),
      List.forall_mem_singleton.mpr x⟩⟩
  have minus := spaced_between (.operator .subtract)
  have spaced := (spaced_word (.number ⟨['8'], [], []⟩)).append (minus.append ((spaced_word (.number ⟨['4'], [], []⟩)).append
    (minus.append ((spaced_word (.operator .subtract)).append (spaced_word (.name ['x']))))))
  obtain ⟨value, -⟩ := evaluateText_flat _ valid "8 - 4 - -x" spaced (fun _ => some (.number 3)) (fun _ => 3)
    (fun _ _ _ _ => rfl)
  rw [value, Flat.value, reduce_eq_mergeAll]
  decide +kernel

end Formula
