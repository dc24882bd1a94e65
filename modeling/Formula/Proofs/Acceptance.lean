import Formula.Proofs.Brackets

/-! Compiling decides the grammar. A text compiles exactly if it spaces the words of a
derivation whose brackets nest within the limit and whose numbers are finite, and then to
the formula of that derivation, which is the only one of the text. -/

namespace Formula.Grammar

mutual
theorem Phrase.valid {level : Nat} (phrase : Phrase level) : ∀ word ∈ phrase.words, word.Valid :=
  match phrase with
  | .alone sum => sum.valid
  | .compared left _ right =>
    List.forall_mem_append.mpr ⟨left.valid, List.forall_mem_cons.mpr ⟨trivial, right.valid⟩⟩
  | .chain _ head terms => List.forall_mem_append.mpr ⟨head.valid, terms.valid⟩
  | .signed sign _ atom => by
    cases sign with
    | none => exact atom.valid
    | some sign => exact List.forall_mem_cons.mpr ⟨trivial, atom.valid⟩
termination_by structural phrase

theorem Terms.valid {level : Nat} (terms : Terms level) : ∀ word ∈ terms.words, word.Valid :=
  match terms with
  | .nil => nofun
  | .cons _ _ operand terms =>
    List.forall_mem_cons.mpr ⟨trivial, List.forall_mem_append.mpr ⟨operand.valid, terms.valid⟩⟩
termination_by structural terms

theorem Atom.valid (atom : Atom) : ∀ word ∈ atom.words, word.Valid :=
  match atom with
  | .number _ valid => List.forall_mem_singleton.mpr valid
  | .text _ _ valid => List.forall_mem_singleton.mpr valid
  | .field _ valid => List.forall_mem_singleton.mpr valid
  | .call _ valid arguments => List.forall_mem_cons.mpr ⟨valid, List.forall_mem_cons.mpr ⟨trivial,
      List.forall_mem_append.mpr ⟨arguments.valid, List.forall_mem_singleton.mpr trivial⟩⟩⟩
  | .group inner => List.forall_mem_cons.mpr ⟨trivial,
      List.forall_mem_append.mpr ⟨inner.valid, List.forall_mem_singleton.mpr trivial⟩⟩
termination_by structural atom

theorem Arguments.valid (arguments : Arguments) : ∀ word ∈ arguments.words, word.Valid :=
  match arguments with
  | .none => nofun
  | .some first later => List.forall_mem_append.mpr ⟨first.valid, later.valid⟩
termination_by structural arguments

theorem Later.valid (later : Later) : ∀ word ∈ later.words, word.Valid :=
  match later with
  | .nil => nofun
  | .cons argument later =>
    List.forall_mem_cons.mpr ⟨trivial, List.forall_mem_append.mpr ⟨argument.valid, later.valid⟩⟩
termination_by structural later
end

theorem Phrase.apart (phrase : Phrase 0) : phrase.words.IsChain Word.Apart := by
  obtain ⟨state, run, -⟩ := phrase.accepted
  exact apart_of_reads? run

theorem Phrase.eq_of_spaced {text : List Char} (phrase other : Phrase 0) (spaced : Spaced phrase.words text)
    (spaced' : Spaced other.words text) : phrase = other :=
  phrase.eq_of_words other (spaced.unique spaced' phrase.valid other.valid phrase.apart other.apart)

theorem ofText_spaced {text : List Char} (phrase : Phrase 0) (spaced : Spaced phrase.words text) :
    ∃ placed, Words.ofText text = ⟨placed, text.length⟩ ∧
      placed.map Placed.token = phrase.words.map Word.token := by
  obtain ⟨placed, read, same⟩ := read_spaced spaced phrase.valid phrase.apart 0
  rw [Nat.zero_add] at read
  exact ⟨placed, read, same⟩

theorem parse_spaced {text : List Char} (phrase : Phrase 0) (spaced : Spaced phrase.words text) :
    parse text = .ok phrase.expr := by
  obtain ⟨placed, read, same⟩ := ofText_spaced phrase spaced
  obtain ⟨state, run, result⟩ := phrase.accepted
  have run := (run_eq_ok_iff same).mpr run
  simp only [parse, read, run, bind, Except.bind, result, if_true]
  rfl

theorem parse_sound {text : List Char} {expr : Expr} (parsed : parse text = .ok expr) :
    ∃ phrase : Phrase 0, Spaced phrase.words text ∧ phrase.expr = expr := by
  simp only [parse, bind, Except.bind] at parsed
  split at parsed
  · cases parsed
  · next state run =>
    split at parsed
    · next accepted result =>
      split at parsed
      · next ends =>
        cases parsed
        obtain ⟨words, spaced, valid, same⟩ := read_sound text 0 0 (ends.trans (Nat.zero_add _).symm)
        obtain ⟨phrase, rfl, formula⟩ := derives_of_result? valid ((run_eq_ok_iff same.symm).mp run) result
        exact ⟨phrase, spaced, formula⟩
      · cases parsed
    · cases parsed

theorem tooDeep?_spaced {text : List Char} (phrase : Phrase 0) (spaced : Spaced phrase.words text) (limit : Nat) :
    tooDeep? limit text = none ↔ phrase.nesting ≤ limit := by
  obtain ⟨placed, read, same⟩ := ofText_spaced phrase spaced
  have read : (Words.read 0 0 text).tokens = placed := congrArg Words.tokens read
  rw [tooDeep?, tooDeepFrom?_spaced spaced phrase.valid phrase.apart, read, tooDeepWord?_eq_none, same]
  constructor
  · rintro ⟨after, run⟩
    have fits := ((phrase.balanced limit 0 after (Nat.zero_le limit)).mp run).1
    rwa [Nat.zero_add] at fits
  · intro fits
    exact ⟨0, (phrase.balanced limit 0 0 (Nat.zero_le limit)).mpr ⟨by rwa [Nat.zero_add], rfl⟩⟩

def outOfRange? (word : Placed) : Option (Nat × String) :=
  match word.token with
  | .number numeral x => if x.isFinite then none else some (word.offset, numeral)
  | _ => none

theorem firstOutOfRange?_eq (text : List Char) :
    firstOutOfRange? text = (Words.ofText text).tokens.findSome? outOfRange? := rfl

theorem findSome?_outOfRange {placed : List Placed} {words : List Word} (same : placed.map Placed.token = words.map Word.token) :
    placed.findSome? outOfRange? = none ↔ Finite words := by
  rw [List.findSome?_eq_none_iff]
  constructor
  · intro each numeral member
    have token : Token.number (.ofList numeral.chars) numeral.toFloat ∈ placed.map Placed.token := by
      rw [same]
      exact List.mem_map.mpr ⟨_, member, rfl⟩
    obtain ⟨word, placed, number⟩ := List.mem_map.mp token
    have finite := each word placed
    rw [outOfRange?, number] at finite
    simpa using finite
  · intro finite word member
    unfold outOfRange?
    split
    · next numeral x number =>
      have token : Token.number numeral x ∈ words.map Word.token := by
        rw [← same, ← number]
        exact List.mem_map_of_mem member
      obtain ⟨written, within, token⟩ := List.mem_map.mp token
      cases written with
      | number numeral' =>
        cases token
        exact if_pos (finite numeral' within)
      | text | name | operator | relation | opening | closing | comma => cases token
    · rfl

theorem firstOutOfRange?_spaced {text : List Char} (phrase : Phrase 0) (spaced : Spaced phrase.words text) :
    firstOutOfRange? text = none ↔ Finite phrase.words := by
  obtain ⟨placed, read, same⟩ := ofText_spaced phrase spaced
  rw [firstOutOfRange?_eq, read]
  exact findSome?_outOfRange same

theorem compileChars_eq_ok_iff {limit : Nat} {text : List Char} {expr : Expr} : compileChars limit text = .ok expr ↔
    ∃ phrase : Phrase 0, Spaced phrase.words text ∧ phrase.nesting ≤ limit ∧ Finite phrase.words ∧ phrase.expr = expr := by
  constructor
  · intro compiled
    simp only [compileChars] at compiled
    split at compiled
    · cases compiled
    · next shallow =>
      split at compiled
      · cases compiled
      · next formula parsed =>
        split at compiled
        · cases compiled
        · next inRange =>
          cases compiled
          obtain ⟨phrase, spaced, rfl⟩ := parse_sound parsed
          exact ⟨phrase, spaced, (tooDeep?_spaced phrase spaced limit).mp shallow,
            (firstOutOfRange?_spaced phrase spaced).mp inRange, rfl⟩
  · rintro ⟨phrase, spaced, fits, finite, rfl⟩
    simp only [compileChars, (tooDeep?_spaced phrase spaced limit).mpr fits, parse_spaced phrase spaced,
      (firstOutOfRange?_spaced phrase spaced).mpr finite]

/-- The texts that compile are those of the grammar, each with the formula of its only derivation. -/
theorem compile_iff_derivation (limit : Nat) (text : String) (expr : Expr) :
    (compile limit text = .ok expr ↔ ∃ phrase : Phrase 0, Spaced phrase.words text.toList ∧ phrase.nesting ≤ limit ∧
      Finite phrase.words ∧ phrase.expr = expr) ∧
    ∀ phrase other : Phrase 0, Spaced phrase.words text.toList → Spaced other.words text.toList → phrase = other :=
  ⟨compileChars_eq_ok_iff, fun phrase other => phrase.eq_of_spaced other⟩

end Formula.Grammar
