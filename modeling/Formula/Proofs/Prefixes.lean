import Formula.Proofs.Scanning

/-! The words of the first part of a text. They are found without a look at the rest of the
text beyond its first character, which tells whether it lengthens the last of them. -/

namespace Formula.Grammar

/-- The words of a part of a text, with blanks between and around them, where a rest follows. -/
inductive Lexed : List Word → List Char → List Char → Prop where
  | nil {blanks rest} (blank : Blank blanks) : Lexed [] blanks rest
  | cons {blanks word words part rest} (blank : Blank blanks) (valid : word.Valid)
      (bounded : word.Bounded (part ++ rest)) (later : Lexed words part rest) :
      Lexed (word :: words) (blanks ++ word.chars ++ part) rest

variable {words : List Word} {part rest : List Char}

theorem Lexed.spaced (lexed : Lexed words part rest) : Spaced words part := by
  induction lexed with
  | nil blank => exact .nil blank
  | cons blank _ _ _ ih => exact .cons blank ih

theorem Lexed.valid (lexed : Lexed words part rest) : ∀ word ∈ words, word.Valid := by
  induction lexed with
  | nil => nofun
  | cons _ valid _ _ ih => exact List.forall_mem_cons.mpr ⟨valid, ih⟩

theorem Clear.congr {class_ : Char → Bool} {text other : List Char} (clear : Clear class_ text)
    (same : text.head? = other.head?) : Clear class_ other := by
  intro c first
  rw [← same] at first
  exact clear c first

theorem Word.Bounded.congr {word : Word} {text other : List Char} (bounded : word.Bounded text)
    (same : text.head? = other.head?) : word.Bounded other := by
  cases word with
  | number | name => exact Clear.congr bounded same
  | relation sign =>
    cases sign with
    | less | greater => exact Clear.congr bounded same
    | atMost | atLeast | equal | unequal => trivial
  | text | operator | opening | closing | comma => trivial

theorem Lexed.congr (lexed : Lexed words part rest) {other : List Char} (same : rest.head? = other.head?) :
    Lexed words part other := by
  induction lexed with
  | nil blank => exact .nil blank
  | cons blank valid bounded _ ih =>
    refine .cons blank valid (bounded.congr ?_) (ih same)
    rw [List.head?_append, List.head?_append, same]

theorem Lexed.read (lexed : Lexed words part rest) (offset : Nat) : ∃ placed, placed.map Placed.token = words.map Word.token ∧
    Words.read offset 0 (part ++ rest) = ⟨placed ++ (Words.read (offset + part.length) 0 rest).tokens,
      (Words.read (offset + part.length) 0 rest).stop⟩ := by
  induction lexed generalizing offset with
  | nil blank => exact ⟨[], rfl, read_blanks blank _ offset⟩
  | @cons blanks word words part rest blank valid bounded _ ih =>
    obtain ⟨placed, same, read⟩ := ih (offset + blanks.length + word.chars.length)
    refine ⟨⟨offset + blanks.length, word.token⟩ :: placed, by simp [same], ?_⟩
    rw [List.append_assoc, List.append_assoc, read_blanks blank, read_word valid bounded, read, List.length_append,
      List.length_append]
    simp only [Words.after, Nat.add_assoc, List.cons_append]

theorem read_clear (clear : Clear isBlank rest) (offset : Nat) :
    (Token.first? rest = none ∧ Words.read offset 0 rest = ⟨[], offset⟩) ∨
      ∃ word more, rest = word.chars ++ more ∧ word.Valid ∧ word.Bounded more ∧
        Words.read offset 0 rest = Words.after (.read (offset + word.chars.length) 0 more) offset word := by
  cases rest with
  | nil => exact .inl ⟨rfl, rfl⟩
  | cons c rest =>
    cases first : Token.first? (c :: rest) with
    | none =>
      refine .inl ⟨rfl, ?_⟩
      simp only [Words.read, clear c rfl, first, Bool.false_eq_true, if_false]
    | some found =>
      obtain ⟨word, more, split, valid, bounded, -⟩ := first?_sound first
      refine .inr ⟨word, more, split, valid, bounded, ?_⟩
      rw [split]
      exact read_word valid bounded offset

theorem exists_blanks (text : List Char) : ∃ blanks rest, text = blanks ++ rest ∧ Blank blanks ∧ Clear isBlank rest :=
  ⟨text.takeWhile isBlank, text.dropWhile isBlank, List.takeWhile_append_dropWhile.symm,
    List.all_eq_true.mp List.all_takeWhile, clear_dropWhile isBlank text⟩

/-- The first tokens of a text are the words of a part of it, up to the place where the next begins. -/
theorem exists_lexed {text : List Char} {offset stop : Nat} {before after : List Placed}
    (read : Words.read offset 0 text = ⟨before ++ after, stop⟩) :
    ∃ words part rest, text = part ++ rest ∧ Lexed words part rest ∧ words.map Word.token = before.map Placed.token ∧
      Clear isBlank rest ∧ Words.read (offset + part.length) 0 rest = ⟨after, stop⟩ := by
  induction before generalizing text offset with
  | nil =>
    obtain ⟨blanks, rest, rfl, blank, clear⟩ := exists_blanks text
    rw [read_blanks blank] at read
    exact ⟨[], blanks, rest, rfl, .nil blank, rfl, clear, read⟩
  | cons place before ih =>
    obtain ⟨blanks, rest, rfl, blank, clear⟩ := exists_blanks text
    rw [read_blanks blank] at read
    rcases read_clear clear (offset + blanks.length) with ⟨-, ends⟩ | ⟨word, more, rfl, valid, bounded, goes⟩
    · rw [ends] at read
      cases read
    · rw [goes] at read
      obtain ⟨tokens, same⟩ := Words.mk.inj read
      obtain ⟨first, later⟩ := List.cons.inj tokens
      obtain ⟨words, part, rest, rfl, lexed, tokens', clear', read'⟩ := ih (congr (congrArg Words.mk later) same)
      refine ⟨word :: words, blanks ++ word.chars ++ part, rest, by simp, .cons blank valid bounded lexed, ?_, clear', ?_⟩
      · rw [List.map_cons, List.map_cons, tokens', ← first]
      · rw [← read']
        simp only [List.length_append, Nat.add_assoc]

end Formula.Grammar
