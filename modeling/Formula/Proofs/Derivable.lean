import Formula.Proofs.Reading

/-! The grammar derives what the reader accepts. Every state that the reader reaches holds,
part by part, formulas of phrases that the words so far derive: those of the brackets that
are open, of the operands that wait in each level, and of what was read last. One step adds
its word to the last part or closes parts into a larger one. -/

namespace Formula.Grammar

/-- Some derivation from a level has these words and this formula. -/
def Derives (level : Nat) (words : List Word) (expr : Expr) : Prop :=
  ∃ phrase : Phrase level, phrase.words = words ∧ phrase.expr = expr

theorem Derives.alone {words : List Word} {expr : Expr} (derives : Derives 1 words expr) : Derives 0 words expr := by
  obtain ⟨phrase, rfl, rfl⟩ := derives
  exact ⟨.alone phrase, rfl, rfl⟩

theorem Derives.operand {level : Nat} (tier : IsTier level) {words : List Word} {expr : Expr}
    (derives : Derives (level + 1) words expr) : Derives level words expr := by
  obtain ⟨phrase, rfl, rfl⟩ := derives
  exact ⟨.chain tier phrase .nil, List.append_nil _, rfl⟩

theorem Derives.signed {sign : Option Operator} (valid : ∀ operator ∈ sign, operator.isSign = true) (atom : Atom) :
    Derives 4 (signWords sign ++ atom.words) (.signed sign atom.expr) := ⟨.signed sign valid atom, rfl, rfl⟩

/-- The waiting operands of a level, the latest first, are phrases of the level above. -/
inductive WaitingRead (level : Nat) : Waiting → List Word → Prop where
  | nil : WaitingRead level [] []
  | cons {before words more expr operator} (earlier : WaitingRead level before words)
      (operand : Derives (level + 1) more expr) (tier : operator.precedence = level) :
      WaitingRead level ((expr, operator) :: before) (words ++ more ++ [.operator operator])

private theorem finish_derives {level : Nat} (tier : IsTier level) {before : Waiting} {words : List Word}
    (read : WaitingRead level before words) {more : List Word} (first : Expr × Operator)
    (operand : Derives (level + 1) more first.1) (terms : Terms level) (some : terms.exprs ≠ []) :
    Derives level (words ++ more ++ terms.words) (Waiting.close.finish first before terms.exprs) := by
  induction read generalizing more first terms with
  | nil =>
    obtain ⟨head, rfl, same⟩ := operand
    refine ⟨.chain tier head terms, rfl, ?_⟩
    cases exprs : terms.exprs with
    | nil => exact absurd exprs some
    | cons term rest => simp only [Phrase.expr, exprs, joined, same, Waiting.close.finish]
  | @cons before words earlier expr operator earlierRead previous level_ ih =>
    obtain ⟨phrase, rfl, same⟩ := operand
    have derives := ih (expr, operator) previous (.cons operator level_ phrase terms) (List.cons_ne_nil _ _)
    change Derives level _ (Waiting.close.finish (expr, operator) before ((operator, first.1) :: terms.exprs))
    simpa only [Terms.words, Terms.exprs, same, List.append_assoc, List.cons_append, List.nil_append] using derives

theorem WaitingRead.close {level : Nat} (tier : IsTier level) {before : Waiting} {words more : List Word} {last : Expr}
    (read : WaitingRead level before words) (operand : Derives (level + 1) more last) :
    Derives level (words ++ more) (before.close last) := by
  cases read with
  | nil => exact operand.operand tier
  | @cons before words earlier expr operator read previous level_ =>
    obtain ⟨phrase, rfl, rfl⟩ := operand
    have derives := finish_derives tier read (expr, operator) previous (.cons operator level_ phrase .nil)
      (List.cons_ne_nil _ _)
    change Derives level _ (Waiting.close.finish (expr, operator) before [(operator, phrase.expr)])
    simpa only [Terms.words, Terms.exprs, List.append_assoc, List.cons_append, List.nil_append, List.append_nil]
      using derives

def InfixRead (before : Infix) (words : List Word) : Prop :=
  ∃ sums products powers, words = sums ++ products ++ powers ∧ WaitingRead 1 before.sum sums ∧
    WaitingRead 2 before.product products ∧ WaitingRead 3 before.power powers

theorem infixRead_nil : InfixRead {} [] := ⟨[], [], [], rfl, .nil, .nil, .nil⟩

theorem InfixRead.close {before : Infix} {words more : List Word} {last : Expr} (read : InfixRead before words)
    (operand : Derives 4 more last) : Derives 1 (words ++ more) (before.close last) := by
  obtain ⟨sums, products, powers, rfl, sum, product, power⟩ := read
  have derives := sum.close (by decide) (product.close (by decide) (power.close (by decide) operand))
  simpa only [List.append_assoc, Infix.close, Infix.closeProduct, Infix.closePower] using derives

theorem InfixRead.push {before : Infix} {words more : List Word} {last : Expr} (read : InfixRead before words)
    (operand : Derives 4 more last) (operator : Operator) :
    InfixRead (before.push last operator) (words ++ more ++ [.operator operator]) := by
  obtain ⟨sums, products, powers, rfl, sum, product, power⟩ := read
  have powered := power.close (by decide) operand
  have multiplied := product.close (by decide) powered
  cases operator with
  | add | subtract =>
    refine ⟨_, [], [], ?_, .cons sum multiplied rfl, .nil, .nil⟩
    simp
  | multiply | divide | modulo =>
    refine ⟨sums, _, [], ?_, sum, .cons product powered rfl, .nil⟩
    simp
  | power =>
    refine ⟨sums, products, _, ?_, sum, product, .cons power operand rfl⟩
    simp

def LevelRead (level : Level) (words : List Word) : Prop :=
  match level.compared with
  | none => InfixRead level.operands words
  | some (left, relation) => ∃ first rest, words = first ++ .relation relation :: rest ∧ Derives 1 first left ∧
      InfixRead level.operands rest

private theorem levelRead_nil : LevelRead {} [] := infixRead_nil

theorem LevelRead.close {level : Level} {words more : List Word} {last : Expr} (read : LevelRead level words)
    (operand : Derives 4 more last) : Derives 0 (words ++ more) (level.close last) := by
  obtain ⟨compared, operands⟩ := level
  cases compared with
  | none => exact (InfixRead.close read operand).alone
  | some comparison =>
    obtain ⟨first, rest, rfl, ⟨left, rfl, same⟩, read⟩ := read
    obtain ⟨right, words, closed⟩ := read.close operand
    refine ⟨.compared left comparison.2 right, ?_, ?_⟩
    · simp [Phrase.words, words]
    · simp only [Phrase.expr, same, closed, Level.close]

theorem LevelRead.push {level : Level} {words more : List Word} {last : Expr} (read : LevelRead level words)
    (operand : Derives 4 more last) (operator : Operator) :
    LevelRead { level with operands := level.operands.push last operator } (words ++ more ++ [.operator operator]) := by
  obtain ⟨compared, operands⟩ := level
  cases compared with
  | none => exact InfixRead.push read operand operator
  | some comparison =>
    obtain ⟨first, rest, rfl, left, read⟩ := read
    exact ⟨first, _, by simp, left, read.push operand operator⟩

private theorem WaitingRead.eq_nil {level : Nat} {words : List Word} (read : WaitingRead level [] words) : words = [] := by
  cases read
  rfl

theorem LevelRead.eq_nil {level : Level} {words : List Word} (read : LevelRead level words)
    (empty : level.isEmpty = true) : words = [] := by
  obtain ⟨compared, sum, product, power⟩ := level
  simp only [Level.isEmpty, Bool.and_eq_true, List.isEmpty_iff, Option.isNone_iff_eq_none] at empty
  obtain ⟨⟨⟨rfl, rfl⟩, rfl⟩, rfl⟩ := empty
  obtain ⟨sums, products, powers, rfl, sum, product, power⟩ := read
  rw [sum.eq_nil, product.eq_nil, power.eq_nil]
  rfl

/-- The arguments of a call before the one that is read, the latest first. -/
inductive ArgumentsRead : List Expr → List Word → Prop where
  | nil : ArgumentsRead [] []
  | cons {before words more expr} (earlier : ArgumentsRead before words) (argument : Derives 0 more expr) :
      ArgumentsRead (expr :: before) (words ++ more ++ [.comma])

theorem ArgumentsRead.close {before : List Expr} {words : List Word} (read : ArgumentsRead before words)
    {more : List Word} {last : Expr} (argument : Derives 0 more last) (later : Later) :
    ∃ arguments : Arguments, arguments.words = words ++ more ++ later.words ∧
      arguments.exprs = before.reverse ++ last :: later.exprs := by
  induction read generalizing more last later with
  | nil =>
    obtain ⟨first, rfl, rfl⟩ := argument
    exact ⟨.some first later, rfl, rfl⟩
  | cons earlier previous ih =>
    obtain ⟨phrase, rfl, rfl⟩ := argument
    obtain ⟨arguments, words, exprs⟩ := ih previous (.cons phrase later)
    refine ⟨arguments, ?_, ?_⟩
    · simp [words, Later.words]
    · simp [exprs, Later.exprs]

inductive BracketRead : Bracket → List Word → Prop where
  | group : BracketRead .group [.opening]
  | call {letters before words} (valid : IsName letters) (arguments : ArgumentsRead before words) :
      BracketRead (.call (.ofList letters) before) (.name letters :: .opening :: words)

def SignValid (sign : Option Operator) : Prop := ∀ operator ∈ sign, operator.isSign = true

inductive FramesRead : List Frame → List Word → Prop where
  | nil : FramesRead [] []
  | cons {frames words frame before bracket} (outer : FramesRead frames words) (level : LevelRead frame.level before)
      (sign : SignValid frame.sign) (opened : BracketRead frame.bracket bracket) :
      FramesRead (frame :: frames) (words ++ before ++ signWords frame.sign ++ bracket)

inductive PlaceRead : Place → List Word → Prop where
  | operand : PlaceRead .operand []
  | signed {sign} (valid : SignValid (some sign)) : PlaceRead (.signed sign) [.operator sign]
  | name {sign letters} (valid : SignValid sign) (name : IsName letters) :
      PlaceRead (.name sign (.ofList letters)) (signWords sign ++ [.name letters])
  | after {words operand} (derives : Derives 4 words operand) : PlaceRead (.after operand) words

/-- The words that lead to a state. -/
def StateRead (state : State) (words : List Word) : Prop :=
  ∃ brackets before last, words = brackets ++ before ++ last ∧ FramesRead state.frames brackets ∧
    LevelRead state.level before ∧ PlaceRead state.place last

theorem PlaceRead.operand? {state : State} {words : List Word} (read : PlaceRead state.place words) {last : Expr}
    (complete : state.operand? = some last) : Derives 4 words last := by
  obtain ⟨frames, level, place⟩ := state
  cases read with
  | operand | signed valid => cases complete
  | @name sign letters valid name =>
    cases complete
    exact Derives.signed valid (.field letters name)
  | after derives =>
    cases complete
    exact derives

theorem stateRead_enter (state : State) {kind : Bracket} {brackets before opening : List Word} {sign : Option Operator}
    (frames : FramesRead state.frames brackets) (level : LevelRead state.level before) (signed : SignValid sign)
    (opened : BracketRead kind opening) :
    StateRead (state.enter sign kind) (brackets ++ before ++ signWords sign ++ opening) := by
  refine ⟨_, [], [], ?_, @FramesRead.cons _ _ ⟨state.level, sign, kind⟩ _ _ frames level signed opened, levelRead_nil,
    .operand⟩
  simp

/-- After a bracket is closed, it is an operand with the sign before it. -/
theorem stateRead_leave (frame : Frame) {frames : List Frame} {outer before : List Word} (read : FramesRead frames outer)
    (level : LevelRead frame.level before) (sign : SignValid frame.sign) (atom : Atom) :
    StateRead (State.leave frame frames atom.expr) (outer ++ before ++ signWords frame.sign ++ atom.words) :=
  ⟨outer, before, _, List.append_assoc .., read, level, .after (.signed sign atom)⟩

private theorem close?_read {state next : State} {brackets before words : List Word} {last : Expr}
    (frames : FramesRead state.frames brackets) (level : LevelRead state.level before) (operand : Derives 4 words last)
    (step : state.close? last = some next) : StateRead next (brackets ++ before ++ words ++ [.closing]) := by
  have inner := level.close operand
  obtain ⟨stack, level, place⟩ := state
  cases frames with
  | nil => cases step
  | @cons stack outer frame earlier bracket read kept sign opened =>
    obtain ⟨outerLevel, outerSign, kind⟩ := frame
    cases opened with
    | group =>
      obtain ⟨phrase, words, same⟩ := inner
      cases step
      rw [← same]
      simpa [Atom.words, Atom.expr, words] using stateRead_leave _ read kept sign (.group phrase)
    | @call letters arguments separated valid passed =>
      obtain ⟨arguments, words, exprs⟩ := passed.close inner .nil
      cases step
      have left := stateRead_leave ⟨outerLevel, outerSign, .call (.ofList letters) _⟩ read kept sign
        (.call letters valid arguments)
      simpa [Atom.words, Atom.expr, words, exprs, Later.words, Later.exprs] using left

private theorem separate?_read {state next : State} {brackets before words : List Word} {last : Expr}
    (frames : FramesRead state.frames brackets) (level : LevelRead state.level before) (operand : Derives 4 words last)
    (step : state.separate? last = some next) : StateRead next (brackets ++ before ++ words ++ [.comma]) := by
  have argument := level.close operand
  obtain ⟨stack, level, place⟩ := state
  cases frames with
  | nil => cases step
  | @cons stack outer frame earlier bracket read kept sign opened =>
    obtain ⟨outerLevel, outerSign, kind⟩ := frame
    cases opened with
    | group => cases step
    | @call letters arguments separated valid passed =>
      cases step
      refine ⟨_, [], [], ?_, .cons read kept sign (.call valid (.cons passed argument)), levelRead_nil, .operand⟩
      simp

private theorem compare?_read {state next : State} {brackets before words : List Word} {last : Expr} {relation : Relation}
    (frames : FramesRead state.frames brackets) (level : LevelRead state.level before) (operand : Derives 4 words last)
    (step : state.compare? last relation = some next) :
    StateRead next (brackets ++ before ++ words ++ [.relation relation]) := by
  obtain ⟨stack, ⟨compared, operands⟩, place⟩ := state
  cases compared with
  | some comparison => cases step
  | none =>
    cases step
    refine ⟨brackets, _, [], ?_, frames, ⟨before ++ words, [], rfl, InfixRead.close level operand, infixRead_nil⟩, .operand⟩
    simp

private theorem follow?_read {state next : State} {brackets before words : List Word} {last : Expr} {word : Word}
    (frames : FramesRead state.frames brackets) (level : LevelRead state.level before) (operand : Derives 4 words last)
    (step : state.follow? last word.token = some next) : StateRead next (brackets ++ before ++ words ++ [word]) := by
  cases word with
  | number numeral | text quote content | name letters | opening => cases step
  | operator operator =>
    cases step
    refine ⟨brackets, _, [], ?_, frames, level.push operand operator, .operand⟩
    simp
  | relation relation => exact compare?_read frames level operand step
  | closing => exact close?_read frames level operand step
  | comma => exact separate?_read frames level operand step

private theorem atom?_read {state next : State} {brackets before : List Word} {sign : Option Operator} {word : Word}
    (frames : FramesRead state.frames brackets) (level : LevelRead state.level before) (signed : SignValid sign)
    (valid : word.Valid) (step : state.atom? sign word.token = some next) :
    StateRead next (brackets ++ before ++ signWords sign ++ [word]) := by
  cases word with
  | number numeral =>
    cases step
    exact ⟨brackets, before, _, List.append_assoc .., frames, level, .after (.signed signed (.number numeral valid))⟩
  | text quote content =>
    cases step
    exact ⟨brackets, before, _, List.append_assoc .., frames, level, .after (.signed signed (.text quote content valid))⟩
  | name letters =>
    cases step
    exact ⟨brackets, before, _, List.append_assoc .., frames, level, .name signed valid⟩
  | opening =>
    cases step
    exact stateRead_enter state frames level signed .group
  | operator operator | relation relation | closing | comma => cases step

private theorem endCall?_read {state next : State} {brackets before : List Word}
    (frames : FramesRead state.frames brackets) (level : LevelRead state.level before)
    (step : state.endCall? = some next) : StateRead next (brackets ++ before ++ [.closing]) := by
  obtain ⟨stack, inner, place⟩ := state
  cases frames with
  | nil => cases step
  | @cons stack outer frame earlier bracket read kept sign opened =>
    obtain ⟨outerLevel, outerSign, kind⟩ := frame
    cases opened with
    | group => cases step
    | @call letters arguments separated valid passed =>
      cases passed with
      | cons earlier argument => cases step
      | nil =>
        simp only [State.endCall?] at step
        split at step
        · next empty =>
          cases step
          have left := stateRead_leave ⟨outerLevel, outerSign, .call (.ofList letters) []⟩ read kept sign
            (.call letters valid .none)
          simpa [Atom.words, Atom.expr, Arguments.words, Arguments.exprs, level.eq_nil empty] using left
        · cases step

private theorem step?_read {state next : State} {words : List Word} {word : Word} (read : StateRead state words)
    (valid : word.Valid) (step : state.step? word.token = some next) : StateRead next (words ++ [word]) := by
  obtain ⟨brackets, before, last, rfl, frames, level, place⟩ := read
  obtain ⟨stack, inner, at_⟩ := state
  cases place with
  | operand =>
    rw [List.append_nil]
    cases word with
    | operator operator =>
      change (if operator.isSign = true then _ else none) = some next at step
      split at step
      · next sign =>
        cases step
        exact ⟨brackets, before, _, rfl, frames, level, .signed (by simpa [SignValid] using sign)⟩
      · cases step
    | closing => exact endCall?_read frames level step
    | number _ | text _ _ | name _ | relation _ | opening | comma =>
      have signed : SignValid none := nofun
      simpa [signWords] using atom?_read frames level signed valid step
  | @signed sign signed => simpa [signWords] using atom?_read frames level signed valid step
  | after derives => exact follow?_read frames level derives step
  | @name sign letters signed name =>
    have operand : Derives 4 _ _ := Derives.signed signed (.field letters name)
    cases word with
    | opening =>
      cases step
      have entered := stateRead_enter ⟨stack, inner, .name sign (.ofList letters)⟩ frames level signed (.call name .nil)
      simpa using entered
    | number _ | text _ _ | name _ | operator _ | relation _ | closing | comma =>
      exact follow?_read frames level operand step

/-- A run of the reader keeps its states readings of the words so far. -/
private theorem reads?_read {state final : State} {words more : List Word} (read : StateRead state words)
    (valid : ∀ word ∈ more, word.Valid) (run : reads? state more = some final) : StateRead final (words ++ more) := by
  induction more generalizing state words with
  | nil =>
    cases run
    simpa using read
  | cons word more ih =>
    obtain ⟨next, step, run⟩ := Option.bind_eq_some_iff.mp run
    have kept := step?_read read (valid word List.mem_cons_self) step
    simpa using ih kept (fun word member => valid word (List.mem_cons_of_mem _ member)) run

private theorem stateRead_initial : StateRead .initial [] := ⟨[], [], [], rfl, .nil, levelRead_nil, .operand⟩

/-- The grammar derives the words that the reader accepts, with the formula that it returns. -/
theorem derives_of_result? {words : List Word} {state : State} {expr : Expr} (valid : ∀ word ∈ words, word.Valid)
    (run : reads? .initial words = some state) (result : state.result? = some expr) : Derives 0 words expr := by
  obtain ⟨brackets, before, last, rfl, frames, level, place⟩ := reads?_read stateRead_initial valid run
  obtain ⟨stack, inner, at_⟩ := state
  cases frames with
  | nil =>
    obtain ⟨operand, complete, rfl⟩ := Option.map_eq_some_iff.mp result
    exact level.close (place.operand? complete)
  | cons outer earlier sign opened => cases result

end Formula.Grammar
