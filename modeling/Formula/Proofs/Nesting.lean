import Formula.Proofs.Acceptance

/-! The nesting limit is exact. The guard runs before the reader and counts brackets by
itself; on a text that has a formula the levels it counts are the brackets and calls around
the nodes of the formula, and they bound the depth of the whole tree. -/

namespace Formula

mutual
/-- The most brackets and calls on a path from the root to a leaf. -/
def Expr.nesting : Expr → Nat
  | .literal _ | .field _ => 0
  | .chain head terms => max head.nesting (termsNesting terms)
  | .comparison left _ right => max left.nesting right.nesting
  | .group inner => inner.nesting + 1
  | .call _ arguments => argumentsNesting arguments + 1
termination_by structural expr => expr

def termsNesting : List (Operator × Expr) → Nat
  | [] => 0
  | (_, operand) :: terms => max operand.nesting (termsNesting terms)
termination_by structural terms => terms

def argumentsNesting : List Expr → Nat
  | [] => 0
  | argument :: arguments => max argument.nesting (argumentsNesting arguments)
termination_by structural arguments => arguments
end

/-- The result without a limit: no text opens more levels than it has characters. -/
def compileUnlimited (text : String) : Except CompileError Expr := compile text.toList.length text

def Token.rise : Token → Int
  | .opening => 1
  | .closing => -1
  | _ => 0

def openLevels (words : List Placed) : Int := words.foldr (fun word levels => word.token.rise + levels) 0

def FirstOpening (level : Nat) (text : List Char) (offset : Nat) : Prop :=
  ∃ before after, (Words.ofText text).tokens = before ++ ⟨offset, .opening⟩ :: after ∧
    openLevels before + 1 = level ∧ ∀ early, early <+: before → openLevels early < level

namespace Grammar

theorem nesting_joined (head : Expr) (terms : List (Operator × Expr)) :
    (joined head terms).nesting = max head.nesting (termsNesting terms) := by
  cases terms with
  | nil => exact (Nat.max_zero _).symm
  | cons term terms => rfl

mutual
/-- Brackets and calls of a derivation are those of its formula. -/
theorem Phrase.nesting_expr {level : Nat} (phrase : Phrase level) : phrase.expr.nesting = phrase.nesting :=
  match phrase with
  | .alone sum => sum.nesting_expr
  | .compared left _ right => congrArg₂ max left.nesting_expr right.nesting_expr
  | .chain _ head terms => by
    rw [Phrase.expr, nesting_joined, head.nesting_expr, terms.nesting_exprs]
    rfl
  | .signed sign _ atom => by
    cases sign with
    | none => exact atom.nesting_expr
    | some sign =>
      change max 0 (max atom.expr.nesting 0) = atom.nesting
      rw [Nat.zero_max, Nat.max_zero, atom.nesting_expr]
termination_by structural phrase

theorem Terms.nesting_exprs {level : Nat} (terms : Terms level) : termsNesting terms.exprs = terms.nesting :=
  match terms with
  | .nil => rfl
  | .cons _ _ operand terms => congrArg₂ max operand.nesting_expr terms.nesting_exprs
termination_by structural terms

theorem Atom.nesting_expr (atom : Atom) : atom.expr.nesting = atom.nesting :=
  match atom with
  | .number .. | .text .. | .field .. => rfl
  | .call _ _ arguments => congrArg (· + 1) arguments.nesting_exprs
  | .group inner => congrArg (· + 1) inner.nesting_expr
termination_by structural atom

theorem Arguments.nesting_exprs (arguments : Arguments) : argumentsNesting arguments.exprs = arguments.nesting :=
  match arguments with
  | .none => rfl
  | .some first later => congrArg₂ max first.nesting_expr later.nesting_exprs
termination_by structural arguments

theorem Later.nesting_exprs (later : Later) : argumentsNesting later.exprs = later.nesting :=
  match later with
  | .nil => rfl
  | .cons argument later => congrArg₂ max argument.nesting_expr later.nesting_exprs
termination_by structural later
end

private theorem depth_joined (head : Expr) (terms : List (Operator × Expr)) :
    (joined head terms).depth ≤ max head.depth (Expr.termsDepth terms) + 1 := by
  cases terms with
  | nil => exact Nat.le_succ_of_le (Nat.le_max_left _ _)
  | cons term terms => exact Nat.le_refl _

mutual
/-- Between two brackets a path has at most one node of each level. -/
theorem Phrase.depth_le {level : Nat} (phrase : Phrase level) : phrase.expr.depth + level ≤ 6 * (phrase.nesting + 1) :=
  match phrase with
  | .alone sum => Nat.le_of_succ_le sum.depth_le
  | .compared left _ right => by
    have first := left.depth_le
    have second := right.depth_le
    simp only [Phrase.expr, Phrase.nesting, Expr.depth]
    omega
  | .chain tier head terms => by
    have first := head.depth_le
    have later := terms.depth_le tier
    have whole := depth_joined head.expr terms.exprs
    simp only [Phrase.expr, Phrase.nesting]
    omega
  | .signed sign _ atom => by
    have inner := atom.depth_le
    cases sign with
    | none =>
      change atom.expr.depth + 4 ≤ 6 * (atom.nesting + 1)
      omega
    | some sign =>
      change max 1 (max atom.expr.depth 0) + 1 + 4 ≤ 6 * (atom.nesting + 1)
      omega
termination_by structural phrase

theorem Terms.depth_le {level : Nat} (terms : Terms level) (tier : IsTier level) :
    Expr.termsDepth terms.exprs + (level + 1) ≤ 6 * (terms.nesting + 1) :=
  match terms with
  | .nil => by
    obtain ⟨-, most⟩ := tier
    simp only [Terms.exprs, Terms.nesting, Expr.termsDepth]
    omega
  | .cons _ _ operand terms => by
    have first := operand.depth_le
    have later := terms.depth_le tier
    simp only [Terms.exprs, Terms.nesting, Expr.termsDepth]
    omega
termination_by structural terms

theorem Atom.depth_le (atom : Atom) : atom.expr.depth ≤ 6 * atom.nesting + 1 :=
  match atom with
  | .number .. | .text .. | .field .. => Nat.le_refl 1
  | .call _ _ arguments => Nat.succ_le_succ arguments.depth_le
  | .group inner => Nat.succ_le_succ inner.depth_le
termination_by structural atom

theorem Arguments.depth_le (arguments : Arguments) : Expr.argumentsDepth arguments.exprs ≤ 6 * (arguments.nesting + 1) :=
  match arguments with
  | .none => Nat.zero_le _
  | .some first later => by
    have one := first.depth_le
    have others := later.depth_le
    simp only [Arguments.exprs, Arguments.nesting, Expr.argumentsDepth]
    omega
termination_by structural arguments

theorem Later.depth_le (later : Later) : Expr.argumentsDepth later.exprs ≤ 6 * (later.nesting + 1) :=
  match later with
  | .nil => Nat.zero_le _
  | .cons argument later => by
    have one := argument.depth_le
    have others := later.depth_le
    simp only [Later.exprs, Later.nesting, Expr.argumentsDepth]
    omega
termination_by structural later
end

private theorem follow?_frames {state next : State} {last : Expr} {token : Token}
    (step : state.follow? last token = some next) :
    (next.frames.length : Int) = state.frames.length + token.rise := by
  cases token with
  | operator sign =>
    cases step
    exact (Int.add_zero _).symm
  | relation sign =>
    simp only [State.follow?, State.compare?] at step
    split at step <;> cases step
    exact (Int.add_zero _).symm
  | closing =>
    simp only [State.follow?, State.close?] at step
    split at step
    · next frame frames open_ =>
      have length : (next.frames.length : Int) = frames.length := by split at step <;> cases step <;> rfl
      rw [open_, length, List.length_cons, Token.rise]
      omega
    · cases step
  | comma =>
    simp only [State.follow?, State.separate?] at step
    split at step
    · next frame frames open_ =>
      rw [open_]
      split at step <;> cases step
      exact (Int.add_zero _).symm
    · cases step
  | number | text | name | opening => cases step

private theorem atom?_frames {state next : State} {sign : Option Operator} {token : Token}
    (step : state.atom? sign token = some next) :
    (next.frames.length : Int) = state.frames.length + token.rise := by
  cases token with
  | number | text | name =>
    cases step
    exact (Int.add_zero _).symm
  | opening =>
    cases step
    exact Int.natCast_succ _
  | operator | relation | closing | comma => cases step

private theorem endCall?_frames {state next : State} (step : state.endCall? = some next) :
    (next.frames.length : Int) = state.frames.length + Token.closing.rise := by
  simp only [State.endCall?] at step
  split at step
  · next frame frames open_ =>
    split at step
    · split at step <;> cases step
      rw [open_, List.length_cons, Token.rise]
      change (frames.length : Int) = _
      omega
    · cases step
  · cases step

theorem step?_frames {state next : State} {token : Token} (step : state.step? token = some next) :
    (next.frames.length : Int) = state.frames.length + token.rise := by
  obtain ⟨frames, level, place⟩ := state
  cases place with
  | operand =>
    cases token with
    | operator sign =>
      change (if sign.isSign = true then _ else none) = some next at step
      split at step <;> cases step
      exact (Int.add_zero _).symm
    | closing => exact endCall?_frames step
    | relation | comma => cases step
    | number | text | name | opening => exact atom?_frames step
  | signed sign => exact atom?_frames step
  | name sign letters =>
    cases token with
    | opening =>
      cases step
      exact Int.natCast_succ _
    | number | text | name => cases step
    | operator | relation | closing | comma => exact follow?_frames step
  | after last => exact follow?_frames step

/-- At a token that the reader takes, the guard goes to the level of the reader or stops. -/
theorem nests?_step {state next : State} {token : Token} (step : state.step? token = some next) {limit after : Nat}
    (within : state.frames.length ≤ limit) (passed : nests? limit state.frames.length [token] = some after) :
    after = next.frames.length ∧ next.frames.length ≤ limit := by
  have rise := step?_frames step
  cases token with
  | opening =>
    simp only [nests?] at passed
    split at passed
    · cases passed
      simp only [Token.rise] at rise
      omega
    · cases passed
  | closing =>
    cases passed
    simp only [Token.rise] at rise
    omega
  | number | text | name | operator | relation | comma =>
    cases passed
    simp only [Token.rise] at rise
    omega

private theorem nests?_eq_none {limit depth : Nat} {token : Token} (stops : nests? limit depth [token] = none) :
    token = .opening ∧ limit ≤ depth := by
  cases token with
  | opening =>
    simp only [nests?] at stops
    split at stops
    · cases stops
    · exact ⟨rfl, by omega⟩
  | number | text | name | operator | relation | closing | comma => cases stops

private theorem openLevels_cons (word : Placed) (words : List Placed) :
    openLevels (word :: words) = word.token.rise + openLevels words := rfl

/-- The bracket at an offset is the first that opens more levels than the limit after some
levels that are open already. -/
def Exceeds (limit levels : Nat) (placed : List Placed) (offset : Nat) : Prop :=
  ∃ before after, placed = before ++ ⟨offset, .opening⟩ :: after ∧ levels + openLevels before = limit ∧
    ∀ early, early <+: before → levels + openLevels early ≤ limit

theorem exceeds_opening (limit offset : Nat) (placed : List Placed) :
    Exceeds limit limit (⟨offset, .opening⟩ :: placed) offset := by
  refine ⟨[], placed, rfl, Int.add_zero _, ?_⟩
  intro early isPart
  obtain rfl := List.prefix_nil.mp isPart
  exact Int.le_of_eq (Int.add_zero _)

theorem Exceeds.cons {limit levels next offset : Nat} {word : Placed} {placed : List Placed}
    (exceeds : Exceeds limit next placed offset) (rise : (next : Int) = levels + word.token.rise)
    (within : levels ≤ limit) : Exceeds limit levels (word :: placed) offset := by
  obtain ⟨before, after, rfl, full, early⟩ := exceeds
  refine ⟨word :: before, after, rfl, ?_, ?_⟩
  · rw [openLevels_cons]
    omega
  · intro part isPart
    rcases List.prefix_cons_iff.mp isPart with rfl | ⟨rest, rfl, tail⟩
    · exact (Int.add_zero _).trans_le (Int.ofNat_le.mpr within)
    · have bound := early rest tail
      rw [openLevels_cons]
      omega

private theorem tooDeepWord?_exceeds {state final : State} {placed : List Placed} {limit offset : Nat}
    (run : state.run placed = .ok final) (within : state.frames.length ≤ limit)
    (found : tooDeepWord? limit state.frames.length placed = some offset) :
    Exceeds limit state.frames.length placed offset := by
  induction placed generalizing state with
  | nil => cases found
  | cons word placed ih =>
    simp only [State.run] at run
    split at run
    · next next step =>
      obtain ⟨place, token⟩ := word
      rw [tooDeepWord?_cons] at found
      cases passed : nests? limit state.frames.length [token] with
      | none =>
        obtain ⟨rfl, full⟩ := nests?_eq_none passed
        rw [passed] at found
        cases found
        rw [Nat.le_antisymm within full]
        exact exceeds_opening ..
      | some after =>
        obtain ⟨rfl, within'⟩ := nests?_step step within passed
        rw [passed] at found
        exact (ih run within' found).cons (step?_frames step) within
    · cases run

private theorem tooDeepFrom?_opening {limit offset depth found : Nat} {quote : Option Char} {text : List Char}
    (stops : tooDeepFrom? limit offset depth quote text = some found) :
    ∃ past, found = offset + past ∧ text[past]? = some '(' := by
  induction text generalizing offset depth quote with
  | nil => cases stops
  | cons c text ih =>
    have goOn : ∀ {depth : Nat} {quote : Option Char}, tooDeepFrom? limit (offset + 1) depth quote text = some found →
        ∃ past, found = offset + past ∧ (c :: text)[past]? = some '(' := by
      intro depth quote stops
      obtain ⟨past, rfl, bracket⟩ := ih stops
      exact ⟨past + 1, by omega, bracket⟩
    cases quote with
    | some quote => exact goOn stops
    | none =>
      simp only [tooDeepFrom?] at stops
      split at stops
      · exact goOn stops
      · split at stops
        · next bracket =>
          split at stops
          · exact goOn stops
          · cases stops
            exact ⟨0, rfl, congrArg some bracket⟩
        · split at stops <;> exact goOn stops

private theorem tooDeepFrom?_short {limit depth : Nat} {text : List Char} (short : depth + text.length ≤ limit) (offset : Nat)
    (quote : Option Char) : tooDeepFrom? limit offset depth quote text = none := by
  induction text generalizing offset depth quote with
  | nil => cases quote <;> rfl
  | cons c text ih =>
    simp only [List.length_cons] at short
    cases quote with
    | some quote => exact ih (by omega) _ _
    | none =>
      simp only [tooDeepFrom?]
      split
      · exact ih (by omega) _ _
      · split
        · rw [if_pos (by omega)]
          exact ih (by omega) _ _
        · split <;> exact ih (by omega) _ _

/-- A text that nests beyond the limit is stopped at the first bracket that is one too many. -/
theorem exists_tooDeep? {limit : Nat} {text : List Char} (phrase : Phrase 0) (spaced : Spaced phrase.words text)
    (deep : limit < phrase.nesting) : ∃ offset, tooDeep? limit text = some offset ∧ text[offset]? = some '(' ∧
      FirstOpening (limit + 1) text offset := by
  cases stops : tooDeep? limit text with
  | none => exact absurd ((tooDeep?_spaced phrase spaced limit).mp stops) (Nat.not_le_of_lt deep)
  | some offset =>
    obtain ⟨placed, read, same⟩ := ofText_spaced phrase spaced
    obtain ⟨state, run, -⟩ := phrase.accepted
    have words : (Words.read 0 0 text).tokens = placed := congrArg Words.tokens read
    have found : tooDeepWord? limit 0 placed = some offset := by
      rw [← words, ← tooDeepFrom?_spaced spaced phrase.valid phrase.apart]
      exact stops
    obtain ⟨before, after, split, full, early⟩ :=
      tooDeepWord?_exceeds ((run_eq_ok_iff same).mpr run) (Nat.zero_le limit) found
    obtain ⟨past, rfl, bracket⟩ := tooDeepFrom?_opening stops
    rw [Nat.zero_add] at split ⊢
    refine ⟨past, rfl, bracket, before, after, words.trans split, ?_, ?_⟩
    · have full : (0 : Int) + openLevels before = limit := full
      omega
    · intro part isPart
      have bound : (0 : Int) + openLevels part ≤ limit := early part isPart
      omega

theorem compileChars_of_tooDeep {limit : Nat} {text : List Char} {offset : Nat} (stops : tooDeep? limit text = some offset) :
    compileChars limit text = .error ⟨.tooDeep limit, .ofOffset text offset⟩ := by
  rw [compileChars, stops]

theorem compileChars_congr {limit limit' : Nat} {text : List Char} (shallow : tooDeep? limit text = none)
    (shallow' : tooDeep? limit' text = none) : compileChars limit text = compileChars limit' text := by
  rw [compileChars, compileChars, shallow, shallow']

theorem tooDeep?_length {limit : Nat} {text : List Char} (long : text.length ≤ limit) : tooDeep? limit text = none :=
  tooDeepFrom?_short (by omega) 0 none

end Grammar

open Grammar

/-- A limit refuses exactly the formulas that nest beyond it, at the first bracket that is
one too many, and changes no other result but to refuse. -/
theorem compile_limit_exact (limit : Nat) (text : String) :
    (∀ larger ≥ text.toList.length, compile larger text = compileUnlimited text) ∧
    (∀ expr, compileUnlimited text = .ok expr → expr.nesting ≤ limit →
      compile limit text = .ok expr ∧ expr.depth ≤ 6 * (limit + 1)) ∧
    (∀ expr, compileUnlimited text = .ok expr → limit < expr.nesting →
      ∃ offset, FirstOpening (limit + 1) text.toList offset ∧ text.toList[offset]? = some '(' ∧
        compile limit text = .error ⟨.tooDeep limit, .ofOffset text.toList offset⟩) ∧
    (∀ error, compileUnlimited text = .error error → compile limit text = .error error ∨
      ∃ offset, compile limit text = .error ⟨.tooDeep limit, .ofOffset text.toList offset⟩) := by
  refine ⟨?_, ?_, ?_, ?_⟩
  · intro larger long
    exact compileChars_congr (tooDeep?_length long) (tooDeep?_length (Nat.le_refl _))
  · intro expr compiled fits
    obtain ⟨phrase, spaced, -, finite, rfl⟩ := compileChars_eq_ok_iff.mp compiled
    have depth := phrase.depth_le
    rw [phrase.nesting_expr] at fits
    exact ⟨compileChars_eq_ok_iff.mpr ⟨phrase, spaced, fits, finite, rfl⟩, by omega⟩
  · intro expr compiled deep
    obtain ⟨phrase, spaced, -, finite, rfl⟩ := compileChars_eq_ok_iff.mp compiled
    rw [phrase.nesting_expr] at deep
    obtain ⟨offset, stops, bracket, first⟩ := exists_tooDeep? phrase spaced deep
    exact ⟨offset, first, bracket, compileChars_of_tooDeep stops⟩
  · intro error refused
    cases stops : tooDeep? limit text.toList with
    | none =>
      left
      exact (compileChars_congr stops (tooDeep?_length (Nat.le_refl _))).trans refused
    | some offset =>
      right
      exact ⟨offset, compileChars_of_tooDeep stops⟩

/-- The inner bracket is the first one too many, also behind one in a string. -/
theorem compile_limit_exact_nested :
    (∃ offset, FirstOpening 2 "f('(', (a))".toList offset ∧
      compile 1 "f('(', (a))" = .error ⟨.tooDeep 1, .ofOffset "f('(', (a))".toList offset⟩) ∧
    compile 2 "f('(', (a))" = .ok (.call "f" [.literal (.text "("), .group (.field "a")]) := by
  have exact : compileUnlimited "f('(', (a))" = .ok (.call "f" [.literal (.text "("), .group (.field "a")]) := rfl
  obtain ⟨-, -, refused, -⟩ := compile_limit_exact 1 "f('(', (a))"
  obtain ⟨-, accepted, -, -⟩ := compile_limit_exact 2 "f('(', (a))"
  obtain ⟨offset, first, -, error⟩ := refused _ exact (by decide)
  exact ⟨⟨offset, first, error⟩, (accepted _ exact (by decide)).1⟩

end Formula
