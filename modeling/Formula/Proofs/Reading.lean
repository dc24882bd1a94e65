import Formula.Proofs.Unambiguous

/-! The reader reads what the grammar derives. From a state before an operand, with nothing
that waits at the level of a phrase or above, it takes the words of the phrase and stands
after a last operand; closing the level over that operand gives the formula of the phrase,
and what waited below is left as it was. -/

namespace Formula.Grammar

def waiting (before : Infix) : Nat → Waiting
  | 1 => before.sum
  | 2 => before.product
  | 3 => before.power
  | _ => []

def closeChains (before : Infix) : Nat → Expr → Expr
  | 1, last => before.close last
  | 2, last => before.closeProduct last
  | 3, last => before.closePower last
  | _, last => last

private theorem closeChains_tier {level : Nat} (tier : IsTier level) (before : Infix) (last : Expr) :
    closeChains before level last = (waiting before level).close (closeChains before (level + 1) last) := by
  obtain ⟨least, most⟩ := tier
  match level with
  | 1 | 2 | 3 => rfl

theorem isTier_precedence (operator : Operator) : IsTier operator.precedence := by
  cases operator <;> decide

private theorem waiting_push (before : Infix) (operand : Expr) {operator : Operator} {level : Nat}
    (tier : operator.precedence = level) : waiting (before.push operand operator) level =
      (closeChains before (level + 1) operand, operator) :: waiting before level := by
  subst tier
  cases operator <;> rfl

private theorem waiting_push_below (before : Infix) (operand : Expr) {operator : Operator} {level : Nat}
    (below : level < operator.precedence) : waiting (before.push operand operator) level = waiting before level := by
  match level with
  | 0 | _ + 4 => rfl
  | 1 => cases operator <;> first | rfl | exact absurd below (by decide)
  | 2 => cases operator <;> first | rfl | exact absurd below (by decide)
  | 3 => cases operator <;> exact absurd below (by decide)

private theorem waiting_push_above (before : Infix) (operand : Expr) {operator : Operator} {level : Nat}
    (above : operator.precedence < level) : waiting (before.push operand operator) level = [] := by
  match level with
  | 0 | _ + 4 => rfl
  | 1 => cases operator <;> exact absurd above (by decide)
  | 2 => cases operator <;> first | rfl | exact absurd above (by decide)
  | 3 => cases operator <;> first | rfl | exact absurd above (by decide)

/-- The chain of waiting operands that goes on after a further one. -/
def extend (before : Waiting) (last : Expr) : List (Operator × Expr) → Expr
  | [] => before.close last
  | (operator, operand) :: terms => extend ((last, operator) :: before) operand terms

private theorem extend_cons (first : Expr × Operator) (before : Waiting) (last : Expr) (terms : List (Operator × Expr)) :
    extend (first :: before) last terms = Waiting.close.finish first before ((first.2, last) :: terms) := by
  induction terms generalizing first before last with
  | nil => rfl
  | cons term terms ih =>
    rw [extend, ih]
    rfl

theorem extend_nil (head : Expr) (terms : List (Operator × Expr)) : extend [] head terms = joined head terms := by
  cases terms with
  | nil => rfl
  | cons term terms =>
    rw [extend, extend_cons]
    rfl

/-- Closes a level of brackets from one of its chains on, from level 0 on as a whole. -/
def closeFrom (level : Level) : Nat → Expr → Expr
  | 0, last => level.close last
  | tier, last => closeChains level.operands tier last

structure Fresh (level : Level) (least : Nat) : Prop where
  compared : least = 0 → level.compared = none
  waiting : ∀ tier ≥ least, waiting level.operands tier = []

theorem Fresh.up {level : Level} {least : Nat} (fresh : Fresh level least) : Fresh level (least + 1) where
  compared := nofun
  waiting tier above := fresh.waiting tier (Nat.le_of_succ_le above)

private theorem fresh_empty (compared : Option (Expr × Relation)) : Fresh { compared } 1 where
  compared := nofun
  waiting tier _ := by match tier with | 0 | 1 | 2 | 3 | _ + 4 => rfl

theorem fresh_initial : Fresh {} 0 where
  compared _ := rfl
  waiting tier _ := by match tier with | 0 | 1 | 2 | 3 | _ + 4 => rfl

structure SameBelow (least : Nat) (before after : Level) : Prop where
  compared : least ≠ 0 → after.compared = before.compared
  waiting : ∀ tier < least, waiting after.operands tier = waiting before.operands tier

theorem SameBelow.refl {least : Nat} {level : Level} : SameBelow least level level := ⟨fun _ => rfl, fun _ _ => rfl⟩

theorem SameBelow.down {least : Nat} {before after : Level} (same : SameBelow (least + 1) before after) :
    SameBelow least before after where
  compared _ := same.compared (Nat.succ_ne_zero least)
  waiting tier below := same.waiting tier (Nat.lt_succ_of_lt below)

theorem SameBelow.trans {least : Nat} {before middle after : Level} (first : SameBelow least before middle)
    (second : SameBelow least middle after) : SameBelow least before after where
  compared nonzero := (second.compared nonzero).trans (first.compared nonzero)
  waiting tier below := (second.waiting tier below).trans (first.waiting tier below)

def reads? (state : State) : List Word → Option State
  | [] => some state
  | word :: words => (state.step? word.token).bind fun next => reads? next words

theorem reads?_append (state : State) (first second : List Word) :
    reads? state (first ++ second) = (reads? state first).bind fun next => reads? next second := by
  induction first generalizing state with
  | nil => rfl
  | cons word words ih =>
    simp only [List.cons_append, reads?, ih, Option.bind_assoc]

theorem run_eq_ok_iff {state final : State} {placed : List Placed} {words : List Word}
    (same : placed.map Placed.token = words.map Word.token) :
    state.run placed = .ok final ↔ reads? state words = some final := by
  induction placed generalizing state words with
  | nil =>
    cases words with
    | nil => simp [State.run, reads?]
    | cons word words => cases same
  | cons place placed ih =>
    cases words with
    | nil => cases same
    | cons word words =>
      injection same with first rest
      simp only [State.run, reads?, first]
      cases state.step? word.token with
      | none => simp
      | some next => exact ih rest

/-- What the reader makes of a phrase: a state after its last operand. -/
structure Reached (least : Nat) (before after : State) (expr : Expr) : Prop where
  frames : after.frames = before.frames
  below : SameBelow least before.level after.level
  closed : ∃ last, after.operand? = some last ∧ closeFrom after.level least last = expr

/-- After a complete operand only a bracket tells a name from other operands. -/
theorem step?_after {state : State} {last : Expr} (complete : state.operand? = some last) (token : Token)
    (other : token ≠ .opening) : state.step? token = state.follow? last token := by
  obtain ⟨frames, level, place⟩ := state
  cases place with
  | operand | signed sign => cases complete
  | after operand =>
    cases complete
    rfl
  | name sign letters =>
    cases complete
    cases token <;> first | rfl | exact absurd rfl other

def afterSign : Option Operator → Place
  | none => .operand
  | some sign => .signed sign

theorem step?_atom {state : State} {sign : Option Operator} (place : state.place = afterSign sign) (word : Word)
    (starts : word.Starts) : state.step? word.token = state.atom? sign word.token := by
  obtain ⟨frames, level, at_⟩ := state
  subst place
  cases sign with
  | none => cases word <;> first | rfl | exact starts.elim
  | some sign => rfl

mutual
theorem Phrase.read {level : Nat} (phrase : Phrase level) (state : State) (operand : state.place = .operand)
    (fresh : Fresh state.level level) :
    ∃ after, reads? state phrase.words = some after ∧ Reached level state after phrase.expr :=
  match phrase with
  | .alone sum => by
    obtain ⟨after, run, frames, below, last, complete, closed⟩ := sum.read state operand fresh.up
    refine ⟨after, run, frames, below.down, last, complete, ?_⟩
    have compared : after.level.compared = none := (below.compared (by decide)).trans (fresh.compared rfl)
    have closed : after.level.operands.close last = sum.expr := closed
    simp only [closeFrom, Level.close, compared, closed, Phrase.expr]
  | .compared left relation right => by
    obtain ⟨middle, run, frames, below, last, complete, closed⟩ := left.read state operand fresh.up
    have compared : middle.level.compared = none := (below.compared (by decide)).trans (fresh.compared rfl)
    let next : State := { middle with
      level := { compared := some (middle.level.operands.close last, relation) }, place := .operand }
    have step : middle.step? (.relation relation) = some next := by
      rw [step?_after complete (.relation relation) nofun]
      simp only [State.follow?, State.compare?, compared]
      rfl
    obtain ⟨after, run', frames', below', last', complete', closed'⟩ := right.read next rfl (fresh_empty _)
    refine ⟨after, ?_, frames'.trans frames, ⟨nofun, nofun⟩, last', complete', ?_⟩
    · simp [Phrase.words, reads?_append, run, reads?, Word.token, step, run']
    · have compared' : after.level.compared = some (left.expr, relation) :=
        (below'.compared (by decide)).trans (congrArg (fun expr => some (expr, relation)) closed)
      simp only [closeFrom, Level.close, compared', Phrase.expr]
      exact congrArg _ closed'
  | @Phrase.chain level tier head terms => by
    obtain ⟨middle, run, frames, below, last, complete, closed⟩ := head.read state operand fresh.up
    obtain ⟨after, run', frames', below', last', complete', closed'⟩ := terms.read tier middle last complete
    refine ⟨after, ?_, frames'.trans frames, below.down.trans below', last', complete', ?_⟩
    · simp [Phrase.words, reads?_append, run, run']
    · have empty : waiting middle.level.operands level = [] :=
        (below.waiting level (Nat.lt_succ_self level)).trans (fresh.waiting level (Nat.le_refl level))
      have closed : closeChains middle.level.operands (level + 1) last = head.expr := closed
      rw [closed', empty, closed, extend_nil, Phrase.expr]
  | .signed sign valid atom => by
    cases sign with
    | none =>
      obtain ⟨after, run, frames, same, complete⟩ := atom.read state none operand
      exact ⟨after, run, frames, same ▸ .refl, _, complete, by rw [same]; rfl⟩
    | some sign =>
      let next : State := { state with place := .signed sign }
      have step : state.step? (.operator sign) = some next := by
        simp only [State.step?, operand, valid sign rfl, if_true]
        rfl
      obtain ⟨after, run, frames, same, complete⟩ := atom.read next (some sign) rfl
      refine ⟨after, ?_, frames, same ▸ .refl, _, complete, by rw [same]; rfl⟩
      simp [Phrase.words, signWords, reads?, Word.token, step, run]
termination_by structural phrase

/-- The operands of a chain extend what waits at its level. -/
theorem Terms.read {level : Nat} (terms : Terms level) (tier : IsTier level) (state : State) (last : Expr)
    (complete : state.operand? = some last) :
    ∃ after, reads? state terms.words = some after ∧ after.frames = state.frames ∧
      SameBelow level state.level after.level ∧
      ∃ final, after.operand? = some final ∧ closeFrom after.level level final =
        extend (waiting state.level.operands level) (closeChains state.level.operands (level + 1) last) terms.exprs :=
  match terms with
  | .nil => by
    refine ⟨state, rfl, rfl, .refl, last, complete, ?_⟩
    rw [Terms.exprs, extend, ← closeChains_tier tier]
    match level, tier with
    | _ + 1, _ => rfl
  | .cons operator same operand terms => by
    let next : State := { state with
      level := { state.level with operands := state.level.operands.push last operator }, place := .operand }
    have step : state.step? (.operator operator) = some next := by
      rw [step?_after complete (.operator operator) nofun]
      rfl
    have fresh : Fresh next.level (level + 1) :=
      ⟨nofun, fun _ above => waiting_push_above _ _ (same ▸ above)⟩
    have pushed : SameBelow level state.level next.level :=
      ⟨fun _ => rfl, fun _ below => waiting_push_below _ _ (same ▸ below)⟩
    obtain ⟨middle, run, frames, below, last', complete', closed⟩ := operand.read next rfl fresh
    obtain ⟨after, run', frames', below', final, complete'', closed'⟩ := terms.read tier middle last' complete'
    refine ⟨after, ?_, frames'.trans frames, (pushed.trans below.down).trans below', final, complete'', ?_⟩
    · simp [Terms.words, reads?, Word.token, step, reads?_append, run, run']
    · have closed : closeChains middle.level.operands (level + 1) last' = operand.expr := closed
      rw [closed', closed, below.waiting _ (Nat.lt_succ_self _), Terms.exprs, extend, waiting_push _ _ same]
termination_by structural terms

/-- An operand and the sign before it are read in one. -/
theorem Atom.read (atom : Atom) (state : State) (sign : Option Operator) (place : state.place = afterSign sign) :
    ∃ after, reads? state atom.words = some after ∧ after.frames = state.frames ∧ after.level = state.level ∧
      after.operand? = some (.signed sign atom.expr) :=
  match atom with
  | .number numeral valid => by
    refine ⟨{ state with place := .after (.signed sign (.literal (.number numeral.toFloat))) }, ?_, rfl, rfl, rfl⟩
    rw [Atom.words, reads?, step?_atom place (.number numeral) trivial]
    rfl
  | .text quote content valid => by
    refine ⟨{ state with place := .after (.signed sign (.literal (.text (.ofList content)))) }, ?_, rfl, rfl, rfl⟩
    rw [Atom.words, reads?, step?_atom place (.text quote content) trivial]
    rfl
  | .field letters valid => by
    refine ⟨{ state with place := .name sign (.ofList letters) }, ?_, rfl, rfl, rfl⟩
    rw [Atom.words, reads?, step?_atom place (.name letters) trivial]
    rfl
  | .call letters valid arguments => by
    have run := arguments.read (state.enter sign (.call (.ofList letters) [])) rfl rfl rfl
    refine ⟨State.leave ⟨state.level, sign, .call (.ofList letters) []⟩ state.frames (.call (.ofList letters) arguments.exprs),
      ?_, rfl, rfl, rfl⟩
    rw [Atom.words, reads?, step?_atom place (.name letters) trivial]
    exact run
  | .group inner => by
    obtain ⟨middle, run, frames, below, last, complete, closed⟩ := inner.read (state.enter sign .group) rfl fresh_initial
    have step : middle.step? .closing = some (State.leave ⟨state.level, sign, .group⟩ state.frames (.group inner.expr)) := by
      rw [step?_after complete .closing nofun]
      have closed : middle.level.close last = inner.expr := closed
      simp only [State.follow?, State.close?, frames, closed]
      rfl
    refine ⟨State.leave ⟨state.level, sign, .group⟩ state.frames (.group inner.expr), ?_, rfl, rfl, rfl⟩
    rw [Atom.words, reads?, step?_atom place .opening trivial]
    change reads? (state.enter sign .group) (inner.words ++ [.closing]) = _
    simp only [reads?_append, run, Option.bind_some, reads?, Word.token, step]
termination_by structural atom

theorem Arguments.read (arguments : Arguments) (state : State) {level : Level} {sign : Option Operator}
    {name : String} {frames : List Frame} (operand : state.place = .operand) (empty : state.level = {})
    (open_ : state.frames = ⟨level, sign, .call name []⟩ :: frames) :
    reads? state (arguments.words ++ [.closing]) =
      some (State.leave ⟨level, sign, .call name []⟩ frames (.call name arguments.exprs)) :=
  match arguments with
  | .none => by
    obtain ⟨_, _, _⟩ := state
    subst operand empty open_
    rfl
  | .some first later => by
    obtain ⟨middle, run, frames', below, last, complete, closed⟩ := first.read state operand (empty ▸ fresh_initial)
    have closed : middle.level.close last = first.expr := closed
    have rest := later.read middle last complete (frames'.trans open_)
    simp only [Arguments.words, List.append_assoc, reads?_append, run, Option.bind_some] at rest ⊢
    rw [rest, closed]
    rfl
termination_by structural arguments

theorem Later.read (later : Later) (state : State) {level : Level} {sign : Option Operator} {name : String}
    {before : List Expr} {frames : List Frame} (last : Expr) (complete : state.operand? = some last)
    (open_ : state.frames = ⟨level, sign, .call name before⟩ :: frames) :
    reads? state (later.words ++ [.closing]) = some (State.leave ⟨level, sign, .call name before⟩ frames
      (.call name (before.reverse ++ state.level.close last :: later.exprs))) :=
  match later with
  | .nil => by
    simp only [Later.words, List.nil_append, reads?, Word.token, step?_after complete .closing nofun,
      State.follow?, State.close?, open_]
    rfl
  | .cons argument later => by
    let next : State := { frames := ⟨level, sign, .call name (state.level.close last :: before)⟩ :: frames }
    have step : state.step? .comma = some next := by
      rw [step?_after complete .comma nofun]
      simp only [State.follow?, State.separate?, open_]
      rfl
    obtain ⟨middle, run, frames', below, last', complete', closed⟩ := argument.read next rfl fresh_initial
    have closed : middle.level.close last' = argument.expr := closed
    have rest := later.read middle last' complete' (frames'.trans rfl)
    simp only [Later.words, List.cons_append, List.append_assoc, reads?, Word.token, step, Option.bind_some,
      reads?_append, run] at rest ⊢
    rw [rest, closed]
    simp [State.leave, Later.exprs]
termination_by structural later
end

/-- The reader accepts the words of every derivation, with the formula of the derivation. -/
theorem Phrase.accepted (phrase : Phrase 0) :
    ∃ state, reads? .initial phrase.words = some state ∧ state.result? = some phrase.expr := by
  obtain ⟨state, run, frames, below, last, complete, closed⟩ := phrase.read .initial rfl fresh_initial
  refine ⟨state, run, ?_⟩
  have frames : state.frames = [] := frames
  simp only [State.result?, frames, complete, Option.map_some]
  exact congrArg some closed

end Formula.Grammar
