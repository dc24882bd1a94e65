import Formula.Proofs.Completion
import Formula.Proofs.Places
import Formula.Proofs.Prefixes

/-! A text that is no formula is refused at its first word that no formula has there. What
stands before that place begins some formula; if a whole word stands there, no formula goes on
with it, nor with any other word of its role that it may have been the beginning of. -/

namespace Formula

/-- What the reader goes by in a token. -/
inductive Role where
  | number
  | text
  | name
  | operator (sign : Operator)
  | relation
  | opening
  | closing
  | comma

def Token.role : Token → Role
  | .number .. => .number
  | .text _ => .text
  | .name _ => .name
  | .operator sign => .operator sign
  | .relation _ => .relation
  | .opening => .opening
  | .closing => .closing
  | .comma => .comma

def Role.ofChar? (c : Char) : Option Role :=
  if c.isDigit || c == '.' then some .number
  else if beginsName c then some .name
  else
    match c with
    | '"' | '\'' => some .text
    | '<' | '>' | '=' | '!' => some .relation
    | '(' => some .opening
    | ')' => some .closing
    | ',' => some .comma
    | c => (Operator.ofChar? c).map .operator

namespace Grammar

/-- A word that stands whole at the beginning of a text: none that begins there is longer, and
no letter, underscore or point follows a number. -/
structure CompleteAt (word : Word) (text : List Char) : Prop where
  valid : word.Valid
  begins : word.chars <+: text
  longest : ∀ other : Word, other.Valid → other.chars <+: text → other.chars.length ≤ word.chars.length
  ends : ∀ numeral, word = .number numeral → Clear Numeral.continues (text.drop word.chars.length)

private theorem Word.role_begins {word : Word} (valid : word.Valid) :
    ∃ c later, word.chars = c :: later ∧ Role.ofChar? c = some word.token.role := by
  cases word with
  | number numeral =>
    obtain ⟨c, later, same, begins⟩ := IsNumber.begins valid
    refine ⟨c, later, same, if_pos ?_⟩
    simpa using begins
  | name letters =>
    cases valid with
    | @mk c later begins continues =>
      have point : c ≠ '.' := by
        rintro rfl
        cases begins
      refine ⟨c, later, rfl, ?_⟩
      simp [Role.ofChar?, not_digit_of_beginsName begins, point, begins, Word.token, Token.role]
  | text quote content =>
    rcases valid with ⟨rfl | rfl, -⟩
    · exact ⟨_, _, rfl, rfl⟩
    · exact ⟨_, _, rfl, rfl⟩
  | operator sign => cases sign <;> exact ⟨_, _, rfl, rfl⟩
  | relation sign => cases sign <;> exact ⟨_, _, rfl, rfl⟩
  | opening | closing | comma => exact ⟨_, _, rfl, rfl⟩

theorem role_eq_of_begins {word other : Word} {more rest : List Char} (valid : word.Valid) (valid' : other.Valid)
    (same : word.chars ++ more = other.chars ++ rest) : word.token.role = other.token.role := by
  obtain ⟨c, later, chars, role⟩ := Word.role_begins valid
  obtain ⟨d, later', chars', role'⟩ := Word.role_begins valid'
  rw [chars, chars'] at same
  obtain rfl := (List.cons.inj same).1
  exact Option.some.inj (role.symm.trans role')

private theorem step?_isNone_congr (state : State) {token other : Token} (same : token.role = other.role) :
    (state.step? token).isNone = (state.step? other).isNone := by
  obtain ⟨frames, ⟨compared, operands⟩, place⟩ := state
  cases token with
  | number | text | name =>
    cases other <;> cases same
    cases place <;> rfl
  | relation =>
    cases other <;> cases same
    cases place <;> cases compared <;> rfl
  | operator | opening | closing | comma =>
    cases other <;> cases same
    rfl

private theorem exists_number_snoc {numeral : Numeral} (valid : IsNumber numeral) {c : Char} (digit : c.isDigit = true) :
    ∃ longer, IsNumber longer ∧ longer.chars = numeral.chars ++ [c] := by
  have more : ∀ {digits : List Char}, (∀ d ∈ digits, d.isDigit = true) → ∀ d ∈ digits ++ [c], d.isDigit = true := by
    intro digits all
    exact List.forall_mem_append.mpr ⟨all, List.forall_mem_singleton.mpr digit⟩
  have some : ∀ {digits : List Char}, Digits digits → Digits (digits ++ [c]) := by
    intro digits some
    exact ⟨List.append_ne_nil_of_left_ne_nil some.1 [c], more some.2⟩
  obtain ⟨whole, fraction, power⟩ := numeral
  obtain ⟨mantissa, power⟩ := valid
  cases power with
  | @present mark sign digits exponential signed exponent =>
    refine ⟨⟨whole, fraction, mark :: sign ++ (digits ++ [c])⟩, ⟨mantissa, .present exponential signed (some exponent)⟩, ?_⟩
    simp [Numeral.chars]
  | absent =>
    cases mantissa with
    | whole digits =>
      refine ⟨⟨whole ++ [c], [], []⟩, ⟨.whole (some digits), .absent⟩, ?_⟩
      simp [Numeral.chars]
    | @mixed _ places digits all =>
      refine ⟨⟨whole, '.' :: (places ++ [c]), []⟩, ⟨.mixed digits (more all), .absent⟩, ?_⟩
      simp [Numeral.chars]
    | @places places digits =>
      refine ⟨⟨[], '.' :: (places ++ [c]), []⟩, ⟨.places (some digits), .absent⟩, ?_⟩
      simp [Numeral.chars]

private theorem isName_snoc {letters : List Char} (valid : IsName letters) {c : Char} (continues : continuesName c = true) :
    IsName (letters ++ [c]) := by
  cases valid with
  | mk begins all =>
    exact .mk begins (List.forall_mem_append.mpr ⟨all, List.forall_mem_singleton.mpr continues⟩)

/-- No character after a whole word makes another word with it. -/
theorem CompleteAt.no_longer {word : Word} {c : Char} {rest : List Char}
    (complete : CompleteAt word (word.chars ++ c :: rest)) {other : Word} (valid : other.Valid) : other.chars ≠ word.chars ++ [c] := by
  intro same
  have begins : other.chars <+: word.chars ++ c :: rest := ⟨rest, by simp [same]⟩
  have short := complete.longest other valid begins
  rw [same, List.length_append, List.length_singleton] at short
  omega

theorem CompleteAt.bounded {word : Word} {rest : List Char} (complete : CompleteAt word (word.chars ++ rest)) :
    word.Bounded rest := by
  cases rest with
  | nil => exact Spaced.bounded (.nil nofun) (.singleton word) nofun
  | cons c rest =>
    cases word with
    | number numeral =>
      have ends := complete.ends numeral rfl
      rw [List.drop_left] at ends
      apply clear_cons
      refine Bool.or_eq_false_iff.mpr ⟨?_, ends c rfl⟩
      refine Bool.eq_false_iff.mpr fun digit => ?_
      obtain ⟨longer, valid, chars⟩ := exists_number_snoc complete.valid digit
      exact @CompleteAt.no_longer _ _ _ complete (.number longer) valid chars
    | name letters =>
      apply clear_cons
      refine Bool.eq_false_iff.mpr fun continues => ?_
      exact @CompleteAt.no_longer _ _ _ complete (.name (letters ++ [c])) (isName_snoc complete.valid continues) rfl
    | relation sign =>
      cases sign with
      | less =>
        apply clear_cons
        refine beq_eq_false_iff_ne.mpr ?_
        rintro rfl
        exact @CompleteAt.no_longer _ _ _ complete (.relation .atMost) trivial rfl
      | greater =>
        apply clear_cons
        refine beq_eq_false_iff_ne.mpr ?_
        rintro rfl
        exact @CompleteAt.no_longer _ _ _ complete (.relation .atLeast) trivial rfl
      | atMost | atLeast | equal | unequal => trivial
    | text | operator | opening | closing | comma => trivial

private theorem completeAt_operator (sign : Operator) (rest : List Char) :
    CompleteAt (.operator sign) (sign.symbol :: rest) where
  valid := trivial
  begins := List.prefix_append [sign.symbol] rest
  longest other valid begins := by
    obtain ⟨more, same⟩ := begins
    have role : other.token.role = .operator sign := @role_eq_of_begins _ (.operator sign) _ rest valid trivial same
    cases other <;> cases role
    exact Nat.le_refl 1
  ends := nofun

/-- A reading of a text up to an offset, where the reader takes no word. -/
structure Stuck (text : List Char) (offset : Nat) (words : List Word) (state : State) : Prop where
  within : offset ≤ text.length
  lexed : Lexed words (text.take offset) (text.drop offset)
  reads : reads? .initial words = some state
  refuses : ∀ (word : Word) (rest : List Char), text.drop offset = word.chars ++ rest → word.Valid → word.Bounded rest →
    state.step? word.token = none

theorem run_eq_error {state : State} {placed : List Placed} {offset : Nat} {expected : Expected}
    (failed : state.run placed = .error (offset, expected)) :
    ∃ before word after next, placed = before ++ word :: after ∧ state.run before = .ok next ∧
      next.step? word.token = none ∧ word.offset = offset ∧ next.expected = expected := by
  induction placed generalizing state with
  | nil => cases failed
  | cons word placed ih =>
    simp only [State.run] at failed
    cases step : state.step? word.token with
    | none =>
      rw [step] at failed
      cases failed
      exact ⟨[], word, placed, state, rfl, rfl, step, rfl, rfl⟩
    | some next =>
      rw [step] at failed
      obtain ⟨before, word', after, last, rfl, run, refused, place, instead⟩ := ih failed
      refine ⟨word :: before, word', after, last, rfl, ?_, refused, place, instead⟩
      simp only [State.run, step, run]

/-- The reader is stuck at the next token if it takes none, or where the tokens end. -/
theorem exists_stuck {text : List Char} {stop : Nat} {before after : List Placed} {state : State}
    (read : Words.ofText text = ⟨before ++ after, stop⟩) (run : State.initial.run before = .ok state)
    (refuses : ∀ place ∈ after.head?, state.step? place.token = none) :
    ∃ words, Stuck text ((after.head?.map Placed.offset).getD stop) words state := by
  obtain ⟨words, part, rest, rfl, lexed, same, clear, later⟩ := exists_lexed read
  rw [Nat.zero_add] at later
  have place : (after.head?.map Placed.offset).getD stop = part.length := by
    rcases read_clear clear part.length with ⟨-, ends⟩ | ⟨word, more, -, -, -, goes⟩
    · rw [ends] at later
      obtain ⟨rfl, rfl⟩ := Words.mk.inj later
      rfl
    · rw [goes] at later
      obtain ⟨rfl, -⟩ := Words.mk.inj later
      rfl
  rw [place]
  refine ⟨words, ?_, ?_, (run_eq_ok_iff same.symm).mp run, ?_⟩
  · simp
  · rwa [List.take_left, List.drop_left]
  · intro word more split valid bounded
    rw [List.drop_left] at split
    rw [split, read_word valid bounded] at later
    obtain ⟨tokens, -⟩ := Words.mk.inj later
    apply refuses ⟨part.length, word.token⟩
    rw [← tokens]
    rfl

/-- Where a text fails to be read, the reader is stuck and says what it expects. -/
theorem parse_eq_error {text : List Char} {offset : Nat} {expected : Expected}
    (failed : parse text = .error (offset, expected)) :
    ∃ words state, Stuck text offset words state ∧ state.expected = expected := by
  have split : Words.ofText text = ⟨(Words.ofText text).tokens, (Words.ofText text).stop⟩ := rfl
  simp only [parse, bind, Except.bind] at failed
  cases whole : State.initial.run (Words.ofText text).tokens with
  | error failure =>
    rw [whole] at failed
    cases failed
    obtain ⟨before, word, after, state, tokens, run, refused, rfl, rfl⟩ := run_eq_error whole
    rw [tokens] at split
    have refuses : ∀ place ∈ (word :: after).head?, state.step? place.token = none := by
      intro place first
      cases first
      exact refused
    obtain ⟨words, stuck⟩ := exists_stuck split run refuses
    exact ⟨words, state, stuck, rfl⟩
  | ok state =>
    rw [whole] at failed
    rw [← List.append_nil (Words.ofText text).tokens] at split
    obtain ⟨words, stuck⟩ := exists_stuck split whole (by simp)
    have ends : ((Words.ofText text).stop, state.expected) = (offset, expected) := by
      simp only at failed
      split at failed
      · split at failed
        · cases failed
        · exact Except.error.inj failed
      · exact Except.error.inj failed
    cases ends
    exact ⟨words, state, stuck, rfl⟩

theorem run_append_ok {state final : State} {before after : List Placed} (run : state.run (before ++ after) = .ok final) :
    ∃ middle, state.run before = .ok middle ∧ middle.run after = .ok final := by
  induction before generalizing state with
  | nil => exact ⟨state, rfl, run⟩
  | cons word before ih =>
    simp only [List.cons_append, State.run] at run ⊢
    cases step : state.step? word.token with
    | none =>
      rw [step] at run
      cases run
    | some next =>
      rw [step] at run
      exact ih run

/-- Where the reader is stuck, no formula goes on with the word that stands there. -/
theorem Stuck.not_accepted {text : List Char} {offset : Nat} {words : List Word} {state : State}
    (stuck : Stuck text offset words state) {word : Word} (complete : CompleteAt word (text.drop offset))
    (rest : List Char) : ¬ Accepted (text.take offset ++ (word.chars ++ rest)) := by
  rintro ⟨phrase, spaced⟩
  have refused : state.step? word.token = none := by
    obtain ⟨more, split⟩ := complete.begins
    rw [← split] at complete
    exact stuck.refuses word more split.symm complete.valid complete.bounded
  obtain ⟨c, later, chars, -⟩ := Word.begins complete.valid
  have lexed : Lexed words (text.take offset) (word.chars ++ rest) := by
    obtain ⟨more, split⟩ := complete.begins
    refine stuck.lexed.congr ?_
    rw [← split, chars]
    rfl
  obtain ⟨placed, whole, tokens⟩ := ofText_spaced phrase spaced
  obtain ⟨before, same, read⟩ := lexed.read 0
  obtain ⟨final, accepted, -⟩ := phrase.accepted
  have run := (run_eq_ok_iff tokens).mpr accepted
  obtain ⟨split, stop⟩ := Words.mk.inj (whole.symm.trans read)
  rw [split] at run
  obtain ⟨middle, first, run⟩ := run_append_ok run
  obtain rfl : state = middle := by
    have reads := (run_eq_ok_iff same).mp first
    rw [stuck.reads] at reads
    exact Option.some.inj reads
  rcases read_clear (Word.clear_blank complete.valid rest) (0 + (text.take offset).length) with
    ⟨-, ends⟩ | ⟨other, more, chars', valid, -, goes⟩
  · rw [ends, List.length_append, chars] at stop
    simp at stop
  · have refused' : state.step? other.token = none := by
      rw [← Option.isNone_iff_eq_none, ← step?_isNone_congr state (role_eq_of_begins complete.valid valid chars'), refused]
      rfl
    rw [goes] at run
    simp only [Words.after, State.run, refused'] at run
    cases run

end Grammar

open Grammar

/-- A text within the limit that is no formula is refused at a place, told by its line and column,
such that some formula begins as the text does before it and none goes on with a whole word there. -/
theorem compile_unexpected_place (limit : Nat) (text : String) (shallow : tooDeep? limit text.toList = none)
    (rejected : ¬ Accepted text.toList) :
    ∃ expected position place, compile limit text = .error ⟨.unexpected expected, position⟩ ∧
      (∀ offset, PlaceAt text.toList position offset ↔ offset = place) ∧
      (∃ rest, Accepted (text.toList.take place ++ rest)) ∧
      ∀ word, CompleteAt word (text.toList.drop place) → ∀ rest, ¬ Accepted (text.toList.take place ++ (word.chars ++ rest)) := by
  cases parsed : parse text.toList with
  | ok expr => exact absurd (accepted_iff_parse.mpr ⟨expr, parsed⟩) rejected
  | error failure =>
    obtain ⟨place, expected⟩ := failure
    obtain ⟨words, state, stuck, -⟩ := parse_eq_error parsed
    refine ⟨expected, .ofOffset text.toList place, place, ?_, ?_, ?_, ?_⟩
    · simp only [compile, compileChars, shallow, parsed]
    · intro offset
      constructor
      · intro at_
        exact at_.unique (placeAt_ofOffset stuck.within)
      · rintro rfl
        exact placeAt_ofOffset stuck.within
    · exact exists_accepted_append stuck.lexed.spaced stuck.lexed.valid stuck.reads
    · intro word complete rest
      exact stuck.not_accepted complete rest

/-- An operator in the place of an operand is told by its line, and no formula goes on with it. -/
theorem compile_unexpected_place_operator :
    (∃ expected, compile 1 "1 +\n  * 2" = .error ⟨.unexpected expected, ⟨2, 3⟩⟩) ∧
      ∀ rest, ¬ Accepted ("1 +\n  *".toList ++ rest) := by
  have refused : compile 1 "1 +\n  * 2" = .error ⟨.unexpected .operand, ⟨2, 3⟩⟩ := rfl
  have rejected : ¬ Accepted "1 +\n  * 2".toList := by
    intro accepted
    obtain ⟨expr, parsed⟩ := accepted_iff_parse.mp accepted
    cases parsed
  obtain ⟨expected, position, place, error, places, -, whole⟩ := compile_unexpected_place 1 "1 +\n  * 2" rfl rejected
  obtain rfl : position = ⟨2, 3⟩ := by
    rw [refused] at error
    cases error
    rfl
  obtain rfl : 6 = place := (places 6).mp ⟨by decide, rfl, rfl⟩
  refine ⟨⟨expected, error⟩, fun rest => ?_⟩
  exact whole (.operator .multiply) (completeAt_operator .multiply [' ', '2']) rest

end Formula
