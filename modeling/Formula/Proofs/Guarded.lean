import Mathlib.Algebra.Ring.Int.Defs
import Formula.Proofs.Nesting
import Formula.Proofs.Prefixes

/-! The guard bounds the levels of every attempt to read a text, well formed or not. The guard
knows no grammar, and an attempt may be given up. But as long as the words of a part of the
text are read, each bracket that the reader enters or leaves is one that the guard counts, and
the reader leaves none that it has not entered. So the guard is never behind the reader. -/

namespace Formula

namespace State

/-- A step that fails where it would enter a level beyond the limit. -/
def stepWithin? (limit : Nat) (state : State) (token : Token) : Option State :=
  (state.step? token).filter fun next => next.frames.length ≤ limit

/-- Reads as `run` does, but fails as soon as it would enter a level beyond the limit. -/
def runWithin (limit : Nat) (state : State) : List Placed → Except (Nat × Expected) State
  | [] => .ok state
  | word :: words =>
    match state.stepWithin? limit word.token with
    | some next => next.runWithin limit words
    | none => .error (word.offset, state.expected)

end State

def parseWithin (limit : Nat) (text : List Char) : Except (Nat × Expected) Expr := do
  let words := Words.ofText text
  let state ← State.initial.runWithin limit words.tokens
  match state.result? with
  | some expr => if words.stop = text.length then return expr else throw (words.stop, state.expected)
  | none => throw (words.stop, state.expected)

namespace Grammar

def levels (words : List Word) : Int := (words.map fun word => word.token.rise).sum

/-- Words of a part of a text that some derivation begins with, whether or not the text goes
on as the derivation does. -/
def Attempted (text : List Char) (words : List Word) : Prop :=
  ∃ (phrase : Phrase 0) (later : List Word) (part rest : List Char), phrase.words = words ++ later ∧
    text = part ++ rest ∧ Spaced words part

private theorem reads?_frames {state final : State} {words : List Word} (run : reads? state words = some final) :
    (final.frames.length : Int) = state.frames.length + levels words := by
  induction words generalizing state with
  | nil =>
    cases run
    exact (Int.add_zero _).symm
  | cons word words ih =>
    obtain ⟨next, step, run⟩ := Option.bind_eq_some_iff.mp run
    have rise := step?_frames step
    have later := ih run
    simp only [levels, List.map_cons, List.sum_cons] at later ⊢
    omega

/-- Over the words of a part of a text the reader stays within the levels that the guard allows. -/
private theorem frames_within {limit offset : Nat} {state final : State} {words : List Word} {part rest : List Char}
    (spaced : Spaced words part) (valid : ∀ word ∈ words, word.Valid) (run : reads? state words = some final)
    (within : state.frames.length ≤ limit)
    (shallow : tooDeepFrom? limit offset state.frames.length none (part ++ rest) = none) :
    final.frames.length ≤ limit := by
  induction spaced generalizing offset state with
  | nil =>
    cases run
    exact within
  | @cons blanks word words part blank _ ih =>
    obtain ⟨head, later⟩ := List.forall_mem_cons.mp valid
    obtain ⟨next, step, run⟩ := Option.bind_eq_some_iff.mp run
    rw [List.append_assoc, List.append_assoc, tooDeepFrom?_blanks blank, tooDeepFrom?_word head] at shallow
    cases passed : nests? limit state.frames.length [word.token] with
    | none =>
      rw [passed] at shallow
      cases shallow
    | some after =>
      rw [passed] at shallow
      obtain ⟨rfl, within⟩ := nests?_step step within passed
      exact ih later run within shallow

theorem runWithin_eq_run {limit : Nat} {state : State} {placed : List Placed}
    (within : ∀ before after final, placed = before ++ after → state.run before = .ok final → final.frames.length ≤ limit) :
    state.runWithin limit placed = state.run placed := by
  induction placed generalizing state with
  | nil => rfl
  | cons word placed ih =>
    simp only [State.runWithin, State.run, State.stepWithin?]
    cases step : state.step? word.token with
    | none => rfl
    | some next =>
      have first : next.frames.length ≤ limit := by
        apply within [word] placed next rfl
        simp only [State.run, step]
      have later := ih fun before after final split run => by
        apply within (word :: before) after final (congrArg (word :: ·) split)
        simpa only [State.run, step] using run
      simpa only [Option.filter, first, decide_true, if_true] using later

private theorem levels_eq_openLevels {words : List Word} {placed : List Placed}
    (same : words.map Word.token = placed.map Placed.token) : levels words = openLevels placed := by
  have counted : openLevels placed = ((placed.map Placed.token).map Token.rise).sum := by
    rw [openLevels, List.sum_eq_foldr, List.foldr_map, List.foldr_map]
  rw [counted, ← same, levels, List.map_map]
  rfl

theorem exists_reads? {text : List Char} {before after : List Placed} {state : State}
    (split : (Words.ofText text).tokens = before ++ after) (run : State.initial.run before = .ok state) :
    ∃ words part rest, text = part ++ rest ∧ Spaced words part ∧ (∀ word ∈ words, word.Valid) ∧
      words.map Word.token = before.map Placed.token ∧ reads? .initial words = some state := by
  have read : Words.read 0 0 text = ⟨before ++ after, (Words.ofText text).stop⟩ := by
    rw [← split]
    rfl
  obtain ⟨words, part, rest, rfl, lexed, same, -, -⟩ := exists_lexed read
  exact ⟨words, part, rest, rfl, lexed.spaced, lexed.valid, same, (run_eq_ok_iff same.symm).mp run⟩

theorem Attempted.reads? {text : List Char} {words : List Word} (attempted : Attempted text words) :
    ∃ part rest state, text = part ++ rest ∧ Spaced words part ∧ (∀ word ∈ words, word.Valid) ∧
      Grammar.reads? .initial words = some state := by
  obtain ⟨phrase, later, part, rest, split, rfl, spaced⟩ := attempted
  obtain ⟨final, run, -⟩ := phrase.accepted
  have valid := phrase.valid
  rw [split] at run valid
  rw [reads?_append] at run
  obtain ⟨state, run, -⟩ := Option.bind_eq_some_iff.mp run
  exact ⟨part, rest, state, rfl, spaced, (List.forall_mem_append.mp valid).1, run⟩

end Grammar

open Grammar

/-- On a text that the guard lets pass, the reader never has more levels open than the limit,
nor has any attempt to derive a part of the text, and a reader that fails as soon as it would
enter one level more has the same result or failure. -/
theorem levels_within_limit (limit : Nat) (text : List Char) (shallow : tooDeep? limit text = none) :
    (∀ before after state, (Words.ofText text).tokens = before ++ after → State.initial.run before = .ok state →
      (state.frames.length : Int) = openLevels before ∧ state.frames.length ≤ limit) ∧
    (∀ words, Attempted text words → levels words ≤ limit) ∧
    parseWithin limit text = parse text := by
  have within : ∀ {words part rest state}, text = part ++ rest → Spaced words part → (∀ word ∈ words, word.Valid) →
      reads? .initial words = some state → (state.frames.length : Int) = levels words ∧ state.frames.length ≤ limit := by
    intro words part rest state split spaced valid run
    subst split
    exact ⟨(reads?_frames run).trans (Int.zero_add _), frames_within spaced valid run (Nat.zero_le limit) shallow⟩
  have states : ∀ before after state, (Words.ofText text).tokens = before ++ after → State.initial.run before = .ok state →
      (state.frames.length : Int) = openLevels before ∧ state.frames.length ≤ limit := by
    intro before after state split run
    obtain ⟨words, part, rest, parts, spaced, valid, same, run⟩ := exists_reads? split run
    rw [← levels_eq_openLevels same]
    exact within parts spaced valid run
  refine ⟨states, ?_, ?_⟩
  · intro words attempted
    obtain ⟨part, rest, state, parts, spaced, valid, run⟩ := attempted.reads?
    obtain ⟨same, bound⟩ := within parts spaced valid run
    omega
  · have same : State.initial.runWithin limit (Words.ofText text).tokens = State.initial.run (Words.ofText text).tokens := by
      apply runWithin_eq_run
      intro before after final split run
      exact (states before after final split run).2
    simp only [parseWithin, same]
    rfl

/-- A stray bracket hides none from the guard: the reader stops before it, at level one at most. -/
theorem levels_within_limit_stray :
    tooDeep? 1 "f(a)) + (b".toList = none ∧ parseWithin 1 "f(a)) + (b".toList = parse "f(a)) + (b".toList :=
  ⟨rfl, (levels_within_limit 1 "f(a)) + (b".toList rfl).2.2⟩

end Formula
