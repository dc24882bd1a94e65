import Formula.Proofs.Writing

/-! The reader goes no further than some formula does. Wherever it stands, an operand, if one
is due, and a closing bracket for each level that is open make a formula of what it has read. -/

namespace Formula.Grammar

/-- A text that the grammar derives, whatever its nesting and its numbers. -/
def Accepted (text : List Char) : Prop := ∃ phrase : Phrase 0, Spaced phrase.words text

theorem accepted_iff_parse {text : List Char} : Accepted text ↔ ∃ expr, parse text = .ok expr := by
  constructor
  · rintro ⟨phrase, spaced⟩
    exact ⟨phrase.expr, parse_spaced phrase spaced⟩
  · rintro ⟨expr, parsed⟩
    obtain ⟨phrase, spaced, -⟩ := parse_sound parsed
    exact ⟨phrase, spaced⟩

private theorem spaced_chars (words : List Word) : Spaced words (words.flatMap Word.chars) := by
  induction words with
  | nil => exact .nil nofun
  | cons word words ih => exact (spaced_word word).append ih

def Leads (state : State) (property : State → Prop) : Prop :=
  ∃ words final, (∀ word ∈ words, word.Valid) ∧ reads? state words = some final ∧ property final

private theorem leads_self {state : State} {property : State → Prop} (holds : property state) : Leads state property :=
  ⟨[], state, nofun, rfl, holds⟩

private theorem leads_step {state next : State} {property : State → Prop} {word : Word} (valid : word.Valid)
    (step : state.step? word.token = some next) (leads : Leads next property) : Leads state property := by
  obtain ⟨words, final, later, run, holds⟩ := leads
  refine ⟨word :: words, final, List.forall_mem_cons.mpr ⟨valid, later⟩, ?_, holds⟩
  rw [reads?, step]
  exact run

theorem Leads.trans {state : State} {property further : State → Prop} (leads : Leads state property)
    (implies : ∀ next, property next → Leads next further) : Leads state further := by
  obtain ⟨words, middle, valid, run, holds⟩ := leads
  obtain ⟨more, final, valid', run', holds'⟩ := implies middle holds
  refine ⟨words ++ more, final, List.forall_mem_append.mpr ⟨valid, valid'⟩, ?_, holds'⟩
  rw [reads?_append, run]
  exact run'

private theorem leads_operand (state : State) : Leads state fun next => next.operand?.isSome := by
  have valid : (Word.name ['x']).Valid := .mk rfl nofun
  obtain ⟨frames, level, place⟩ := state
  cases place with
  | operand | signed sign => exact leads_step valid rfl (leads_self rfl)
  | name sign letters | after operand => exact leads_self rfl

/-- After an operand, each level that is open can be closed. -/
private theorem leads_result (frames : List Frame) {state : State} (open_ : state.frames = frames)
    (complete : state.operand?.isSome) : Leads state fun final => final.result?.isSome := by
  induction frames generalizing state with
  | nil =>
    apply leads_self
    simpa only [State.result?, open_, Option.isSome_map] using complete
  | cons frame frames ih =>
    obtain ⟨last, complete⟩ := Option.isSome_iff_exists.mp complete
    have closes : ∃ atom, state.step? .closing = some (.leave frame frames atom) := by
      rw [step?_after complete .closing (by simp)]
      simp only [State.follow?, State.close?, open_]
      split
      · exact ⟨_, rfl⟩
      · exact ⟨_, rfl⟩
    obtain ⟨atom, closes⟩ := closes
    exact @leads_step _ _ _ .closing trivial closes (ih rfl rfl)

/-- What is read of a text begins some formula. -/
theorem exists_accepted_append {words : List Word} {part : List Char} {state : State} (spaced : Spaced words part)
    (valid : ∀ word ∈ words, word.Valid) (run : reads? .initial words = some state) :
    ∃ rest, Accepted (part ++ rest) := by
  have leads := (leads_operand state).trans fun next complete => leads_result next.frames rfl complete
  obtain ⟨more, final, valid', run', accepts⟩ := leads
  obtain ⟨expr, result⟩ := Option.isSome_iff_exists.mp accepts
  have whole : reads? .initial (words ++ more) = some final := by
    rw [reads?_append, run]
    exact run'
  obtain ⟨phrase, same, -⟩ := derives_of_result? (List.forall_mem_append.mpr ⟨valid, valid'⟩) whole result
  refine ⟨more.flatMap Word.chars, phrase, ?_⟩
  rw [same]
  exact spaced.append (spaced_chars more)

end Formula.Grammar
