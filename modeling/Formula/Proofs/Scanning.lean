import Mathlib.Data.List.Chain
import Formula.Proofs.Lexing

/-! The words of a text are found from its characters alone. Words that the reader accepts
one after the other keep apart even where nothing stands between them, so each text that
spaces such words is split into them again and into no others. -/

namespace Formula.Grammar

/-- Whether two words cannot be taken for one when nothing stands between them. -/
def Word.Apart : Word → Word → Prop
  | .number _, .number _ | .number _, .name _ | .name _, .number _ | .name _, .name _ => False
  | .relation _, .relation _ => False
  | _, _ => True

private theorem begins_mark (numeral : Numeral) {word : Word} (valid : word.Valid)
    (apart : Word.Apart (.number numeral) word) : ∃ c later, word.chars = c :: later ∧ c ∈ marks := by
  cases word with
  | number numeral => exact apart.elim
  | name letters => exact apart.elim
  | text quote content =>
    rcases valid with ⟨rfl | rfl, -⟩
    · exact ⟨_, _, rfl, by decide⟩
    · exact ⟨_, _, rfl, by decide⟩
  | operator sign => cases sign <;> exact ⟨_, _, rfl, by decide⟩
  | relation sign => cases sign <;> exact ⟨_, _, rfl, by decide⟩
  | opening | closing | comma => exact ⟨_, _, rfl, by decide⟩

def beginsWord (c : Char) : Prop := c ∈ marks ∨ c.isDigit = true ∨ c = '.' ∨ beginsName c = true

theorem Word.begins {word : Word} (valid : word.Valid) : ∃ c later, word.chars = c :: later ∧ beginsWord c := by
  cases word with
  | number numeral =>
    rcases IsNumber.begins valid with ⟨c, later, same, digit | point⟩
    · exact ⟨c, later, same, .inr (.inl digit)⟩
    · exact ⟨c, later, same, .inr (.inr (.inl point))⟩
  | name letters =>
    cases valid with
    | mk begins continues => exact ⟨_, _, rfl, .inr (.inr (.inr begins))⟩
  | text | operator | relation | opening | closing | comma =>
    obtain ⟨c, later, same, mark⟩ := begins_mark ⟨[], [], []⟩ valid trivial
    exact ⟨c, later, same, .inl mark⟩

private theorem beginsWord.not_blank {c : Char} (begins : beginsWord c) : isBlank c = false := by
  cases blank : isBlank c with
  | false => rfl
  | true =>
    simp only [isBlank, Bool.or_eq_true, beq_iff_eq] at blank
    rcases blank with ((rfl | rfl) | rfl) | rfl <;> exact absurd begins (by unfold beginsWord; decide)

/-- Words that keep apart are bounded by each other. -/
theorem Word.Apart.bounded {word next : Word} (apart : word.Apart next) (valid : next.Valid) (rest : List Char) :
    word.Bounded (next.chars ++ rest) := by
  cases word with
  | number numeral =>
    obtain ⟨c, later, same, mark⟩ := begins_mark _ valid apart
    rw [same]
    exact clear_cons (outside_of_any (by decide) c mark)
  | name letters =>
    have apart : Word.Apart (.number ⟨[], [], []⟩) next := by cases next <;> exact apart
    obtain ⟨c, later, same, mark⟩ := begins_mark _ valid apart
    rw [same]
    exact clear_cons (outside_of_any (by decide) c mark)
  | relation sign =>
    apply bounded_relation
    cases next with
    | relation other => exact apart.elim
    | number numeral =>
      obtain ⟨c, later, same, begins⟩ := IsNumber.begins valid
      simp only [Word.chars, same]
      apply clear_cons
      simp only [beq_eq_false_iff_ne, ne_eq]
      rintro rfl
      exact absurd begins (by decide)
    | name letters =>
      cases valid with
      | mk begins continues =>
        apply clear_cons
        simp only [beq_eq_false_iff_ne, ne_eq]
        rintro rfl
        exact absurd begins (by decide)
    | text quote content =>
      rcases valid with ⟨rfl | rfl, -⟩ <;> exact clear_cons rfl
    | operator sign => cases sign <;> exact clear_cons rfl
    | opening | closing | comma => exact clear_cons rfl
  | text | operator | opening | closing | comma => trivial

private theorem Word.bounded_of_clear {word : Word} {rest : List Char} (clear : ∀ class_ : Char → Bool,
    (∀ c, isBlank c = true → class_ c = false) → Clear class_ rest) : word.Bounded rest := by
  have apart (class_ : Char → Bool) (outside : [' ', '\t', '\r', '\n'].any class_ = false) : Clear class_ rest := by
    refine clear class_ fun c blank => outside_of_any outside c ?_
    simpa [isBlank, or_assoc] using blank
  cases word with
  | number => exact apart lengthens (by decide)
  | name => exact apart continuesName (by decide)
  | relation => exact bounded_relation (apart (· == '=') (by decide))
  | text | operator | opening | closing | comma => trivial

theorem Spaced.bounded {word : Word} {words : List Word} {text : List Char} (spaced : Spaced words text)
    (apart : (word :: words).IsChain Word.Apart) (valid : ∀ next ∈ words, next.Valid) : word.Bounded text := by
  cases spaced with
  | @nil blanks blank =>
    refine Word.bounded_of_clear fun class_ outside => ?_
    intro c first
    exact outside c (blank c (List.mem_of_mem_head? first))
  | @cons blanks next words text blank rest =>
    cases blanks with
    | nil =>
      rw [List.isChain_cons_cons] at apart
      rw [List.nil_append]
      exact apart.1.bounded (valid next List.mem_cons_self) text
    | cons c blanks =>
      exact Word.bounded_of_clear fun class_ outside => clear_cons (outside c (blank c List.mem_cons_self))

private theorem read_skipped (chars rest : List Char) (offset : Nat) :
    Words.read offset chars.length (chars ++ rest) = Words.read (offset + chars.length) 0 rest := by
  induction chars generalizing offset with
  | nil => rfl
  | cons c chars ih =>
    simp only [List.cons_append, List.length_cons, Words.read, ih]
    congr 1
    omega

theorem read_blanks {blanks : List Char} (blank : Blank blanks) (rest : List Char) (offset : Nat) :
    Words.read offset 0 (blanks ++ rest) = Words.read (offset + blanks.length) 0 rest := by
  induction blanks generalizing offset with
  | nil => rfl
  | cons c blanks ih =>
    have first : isBlank c = true := blank c List.mem_cons_self
    have later : Blank blanks := by
      intro d member
      exact blank d (List.mem_cons_of_mem c member)
    simp only [List.cons_append, List.length_cons, Words.read, first, if_true, ih later]
    congr 1
    omega

def Words.after (words : Words) (offset : Nat) (word : Word) : Words :=
  { words with tokens := ⟨offset, word.token⟩ :: words.tokens }

theorem read_word {word : Word} {rest : List Char} (valid : word.Valid) (bounded : word.Bounded rest) (offset : Nat) :
    Words.read offset 0 (word.chars ++ rest) = Words.after (.read (offset + word.chars.length) 0 rest) offset word := by
  obtain ⟨c, later, same, begins⟩ := Word.begins valid
  have first := first?_append valid bounded
  rw [same, List.cons_append] at first ⊢
  simp only [Words.read, begins.not_blank, first, List.length_cons, Nat.add_sub_cancel, read_skipped]
  rw [show offset + 1 + later.length = offset + (later.length + 1) by omega]
  rfl

/-- The words of a text that spaces them are read to its end. -/
theorem read_spaced {words : List Word} {text : List Char} (spaced : Spaced words text)
    (valid : ∀ word ∈ words, word.Valid) (apart : words.IsChain Word.Apart) (offset : Nat) :
    ∃ placed, Words.read offset 0 text = ⟨placed, offset + text.length⟩ ∧
      placed.map Placed.token = words.map Word.token := by
  induction spaced generalizing offset with
  | @nil blanks blank =>
    refine ⟨[], ?_, rfl⟩
    have read := read_blanks blank [] offset
    rw [List.append_nil] at read
    exact read
  | @cons blanks word words text blank rest ih =>
    have later : ∀ next ∈ words, next.Valid := by
      intro next member
      exact valid next (List.mem_cons_of_mem word member)
    obtain ⟨placed, read, same⟩ :=
      ih later apart.tail (offset + blanks.length + word.chars.length)
    refine ⟨⟨offset + blanks.length, word.token⟩ :: placed, ?_, by simp [same]⟩
    rw [List.append_assoc, read_blanks blank, read_word (valid word List.mem_cons_self) (rest.bounded apart later), read]
    simp only [Words.after, List.length_append]
    congr 1
    omega

theorem Spaced.blank {words : List Word} {text : List Char} {c : Char} (spaced : Spaced words text)
    (blank : isBlank c = true) : Spaced words (c :: text) := by
  cases spaced with
  | @nil blanks blanks' => exact .nil (List.forall_mem_cons.mpr ⟨blank, blanks'⟩)
  | @cons blanks word words text blanks' rest =>
    exact @Spaced.cons (c :: blanks) _ _ _ (List.forall_mem_cons.mpr ⟨blank, blanks'⟩) rest

/-- A text that is read to its end spaces the words that are read. -/
theorem read_sound (text : List Char) (offset skipped : Nat)
    (ends : (Words.read offset skipped text).stop = offset + text.length) :
    ∃ words : List Word, Spaced words (text.drop skipped) ∧ (∀ word ∈ words, word.Valid) ∧
      words.map Word.token = (Words.read offset skipped text).tokens.map Placed.token := by
  induction text generalizing offset skipped with
  | nil => exact ⟨[], by rw [List.drop_nil]; exact .nil nofun, nofun, by cases skipped <;> rfl⟩
  | cons c text ih =>
    cases skipped with
    | succ skipped =>
      simp only [Words.read, List.length_cons] at ends ⊢
      exact ih (offset + 1) skipped (by omega)
    | zero =>
      simp only [Words.read, List.length_cons] at ends ⊢
      split at ends
      · next blank =>
        rw [if_pos blank]
        obtain ⟨words, spaced, valid, same⟩ := ih (offset + 1) 0 (by omega)
        exact ⟨words, spaced.blank blank, valid, same⟩
      · next other =>
        rw [if_neg other]
        split at ends
        · next token width first =>
          obtain ⟨word, rest, split, valid, -, same, length⟩ := first?_sound first
          obtain ⟨words, spaced, later, tokens⟩ := ih (offset + 1) (width - 1) (ends.trans (by omega))
          have tail : text.drop (width - 1) = rest := by
            obtain ⟨d, chars, begins, -⟩ := Word.begins valid
            rw [begins] at split length
            rw [(List.cons.inj split).2, length]
            exact List.drop_left
          rw [tail] at spaced
          refine ⟨word :: words, ?_, List.forall_mem_cons.mpr ⟨valid, later⟩, by simp [same, tokens]⟩
          rw [split]
          exact @Spaced.cons [] _ _ _ nofun spaced
        · simp at ends

private theorem Word.eq_of_chars {word other : Word} (valid : word.Valid) (valid' : other.Valid)
    (chars : word.chars = other.chars) (token : word.token = other.token) : word = other := by
  cases word with
  | number numeral =>
    cases other <;> try cases token
    next numeral' =>
      have first := ofText?_append valid (clear_nil : Clear lengthens [])
      have second := ofText?_append valid' (clear_nil : Clear lengthens [])
      rw [show numeral.chars = numeral'.chars from chars, second] at first
      cases first
      rfl
  | text quote content =>
    cases other <;> try cases token
    next quote' content' =>
      obtain ⟨rfl, tail⟩ := List.cons.inj chars
      rw [List.append_cancel_right tail]
  | name letters =>
    cases other <;> try cases token
    next letters' => exact congrArg Word.name chars
  | operator sign | relation sign | opening | closing | comma =>
    cases other <;> cases token
    rfl

private theorem blanks_unique {blanks others rest more : List Char} (blank : Blank blanks) (blank' : Blank others)
    (clear : Clear isBlank rest) (clear' : Clear isBlank more) (same : blanks ++ rest = others ++ more) :
    blanks = others ∧ rest = more := by
  have first : blanks = others := by
    rw [← takeWhile_append_clear blank clear, same, takeWhile_append_clear blank' clear']
  exact ⟨first, List.append_cancel_left (first ▸ same)⟩

theorem Word.clear_blank {word : Word} (valid : word.Valid) (rest : List Char) :
    Clear isBlank (word.chars ++ rest) := by
  obtain ⟨c, later, same, begins⟩ := Word.begins valid
  rw [same]
  exact clear_cons begins.not_blank

/-- A text spaces one list of words that keep apart. -/
theorem Spaced.unique {words others : List Word} {text : List Char} (spaced : Spaced words text)
    (spaced' : Spaced others text) (valid : ∀ word ∈ words, word.Valid) (valid' : ∀ word ∈ others, word.Valid)
    (apart : words.IsChain Word.Apart) (apart' : others.IsChain Word.Apart) : words = others := by
  induction spaced generalizing others with
  | @nil blanks blank =>
    generalize whole : blanks = text at spaced'
    cases spaced' with
    | nil => rfl
    | @cons blanks' word words text blank' rest =>
      have clear := Word.clear_blank (valid' word List.mem_cons_self) text
      have both := blanks_unique blank blank' clear_nil clear (by rw [List.append_nil, whole, List.append_assoc])
      obtain ⟨c, later, same, -⟩ := Word.begins (valid' word List.mem_cons_self)
      rw [same] at both
      cases both.2
  | @cons blanks word words text blank rest ih =>
    have head := valid word List.mem_cons_self
    have later : ∀ next ∈ words, next.Valid := by
      intro next member
      exact valid next (List.mem_cons_of_mem word member)
    generalize whole : blanks ++ word.chars ++ text = text' at spaced'
    cases spaced' with
    | @nil blanks' blank' =>
      have both := blanks_unique blank blank' (Word.clear_blank head text) clear_nil
        (by rw [List.append_nil, ← whole, List.append_assoc])
      obtain ⟨c, later, same, -⟩ := Word.begins head
      rw [same] at both
      cases both.2
    | @cons blanks' word' words' text' blank' rest' =>
      have head' := valid' word' List.mem_cons_self
      have later' : ∀ next ∈ words', next.Valid := fun next member => valid' next (List.mem_cons_of_mem word' member)
      obtain ⟨-, same⟩ := blanks_unique blank blank' (Word.clear_blank head text) (Word.clear_blank head' text')
        (by rw [← List.append_assoc, whole, List.append_assoc])
      have first := first?_append head (rest.bounded apart later)
      rw [same, first?_append head' (rest'.bounded apart' later')] at first
      obtain ⟨token, length⟩ := Prod.mk.inj (Option.some.inj first)
      obtain ⟨chars, tail⟩ := List.append_inj same length.symm
      subst tail
      rw [Word.eq_of_chars head head' chars token.symm, ih rest' later later' apart.tail apart'.tail]

private theorem step?_number {state next : State} {text : String} {x : Float}
    (step : state.step? (.number text x) = some next) : ∃ operand, next.place = .after operand := by
  obtain ⟨frames, level, place⟩ := state
  cases place with
  | operand | signed sign =>
    cases step
    exact ⟨_, rfl⟩
  | name sign name => cases step
  | after operand => cases step

private theorem step?_name {state next : State} {letters : String}
    (step : state.step? (.name letters) = some next) : ∃ sign, next.place = .name sign letters := by
  obtain ⟨frames, level, place⟩ := state
  cases place with
  | operand | signed sign =>
    cases step
    exact ⟨_, rfl⟩
  | name sign name => cases step
  | after operand => cases step

private theorem step?_relation {state next : State} {relation : Relation}
    (step : state.step? (.relation relation) = some next) : next.place = .operand := by
  have follow : ∀ last, state.compare? last relation = some next → next.place = .operand := by
    intro last step
    simp only [State.compare?] at step
    split at step <;> cases step
    rfl
  obtain ⟨frames, level, place⟩ := state
  cases place with
  | operand | signed sign => cases step
  | name sign name | after operand => exact follow _ step

/-- The reader accepts no two words in turn that could be taken for one. -/
private theorem apart_of_steps {state middle next : State} {word other : Word}
    (first : state.step? word.token = some middle) (second : middle.step? other.token = some next) :
    word.Apart other := by
  obtain ⟨frames, level, place⟩ := middle
  cases word with
  | number numeral =>
    obtain ⟨operand, rfl⟩ := step?_number first
    cases other <;> trivial
  | name letters =>
    obtain ⟨sign, rfl⟩ := step?_name first
    cases other <;> trivial
  | relation sign =>
    obtain rfl := step?_relation first
    cases other <;> trivial
  | text | operator | opening | closing | comma => trivial

theorem apart_of_reads? {state final : State} {words : List Word} (read : reads? state words = some final) :
    words.IsChain Word.Apart := by
  induction words generalizing state with
  | nil => exact .nil
  | cons word words ih =>
    obtain ⟨middle, first, later⟩ := Option.bind_eq_some_iff.mp read
    cases words with
    | nil => exact .singleton word
    | cons other words =>
      obtain ⟨next, second, -⟩ := Option.bind_eq_some_iff.mp later
      exact .cons_cons (apart_of_steps first second) (ih later)

end Formula.Grammar
