import Formula.Compile
import Formula.Proofs.Scanning

/-! The bracket guard and the words of a text. Strings hide their brackets from the guard as
they do from the reader, so on words that are spaced out it counts their brackets alone; on
the words of a derivation it stops exactly where brackets and calls nest beyond the limit. -/

namespace Formula.Grammar

/-- The most levels that a text opens one in the other, where `depth` levels are open before it. -/
def deepest : (depth : Nat) → (quote : Option Char) → List Char → Nat
  | _, _, [] => 0
  | depth, some quote, c :: rest => deepest depth (if c = quote then none else some quote) rest
  | depth, none, c :: rest =>
    if c = '"' ∨ c = '\'' then deepest depth (some c) rest
    else if c = '(' then max (depth + 1) (deepest (depth + 1) none rest)
    else if c = ')' then deepest (depth - 1) none rest
    else deepest depth none rest

def bracketNesting (text : List Char) : Nat := deepest 0 none text

private theorem tooDeepFrom?_eq_none_iff (limit offset depth : Nat) (quote : Option Char) (text : List Char) :
    tooDeepFrom? limit offset depth quote text = none ↔ deepest depth quote text ≤ limit := by
  induction text generalizing offset depth quote with
  | nil => cases quote <;> simp [tooDeepFrom?, deepest]
  | cons c text ih =>
    cases quote with
    | some quote => exact ih _ _ _
    | none =>
      simp only [tooDeepFrom?, deepest]
      split
      · exact ih _ _ _
      · split
        · split
          · next below =>
            rw [ih, Nat.max_le]
            exact ⟨fun fits => ⟨below, fits⟩, fun fits => fits.2⟩
          · next above =>
            rw [Nat.max_le]
            exact ⟨nofun, fun fits => absurd fits.1 above⟩
        · split <;> exact ih _ _ _

/-- The guard lets a text pass exactly if its brackets nest within the limit. -/
theorem tooDeep?_eq_none_iff {limit : Nat} {text : List Char} :
    tooDeep? limit text = none ↔ bracketNesting text ≤ limit := tooDeepFrom?_eq_none_iff limit 0 0 none text

/-- The offset of the first word that opens a level beyond the limit. -/
def tooDeepWord? (limit : Nat) : Nat → List Placed → Option Nat
  | _, [] => none
  | depth, ⟨offset, .opening⟩ :: words =>
    if depth < limit then tooDeepWord? limit (depth + 1) words else some offset
  | depth, ⟨_, .closing⟩ :: words => tooDeepWord? limit (depth - 1) words
  | depth, _ :: words => tooDeepWord? limit depth words

/-- The number of levels open after some tokens, if none opens beyond the limit. -/
def nests? (limit : Nat) : Nat → List Token → Option Nat
  | depth, [] => some depth
  | depth, .opening :: tokens => if depth < limit then nests? limit (depth + 1) tokens else none
  | depth, .closing :: tokens => nests? limit (depth - 1) tokens
  | depth, _ :: tokens => nests? limit depth tokens

theorem tooDeepWord?_cons (limit depth offset : Nat) (token : Token) (words : List Placed) :
    tooDeepWord? limit depth (⟨offset, token⟩ :: words) =
      match nests? limit depth [token] with
      | some after => tooDeepWord? limit after words
      | none => some offset := by
  cases token with
  | opening =>
    simp only [tooDeepWord?, nests?]
    by_cases below : depth < limit
    · rw [if_pos below, if_pos below]
    · rw [if_neg below, if_neg below]
  | number | text | name | operator | relation | closing | comma => rfl

private theorem tooDeepFrom?_plain {chars : List Char} (plain : ∀ c ∈ chars, c ∉ ['"', '\'', '(', ')'])
    (rest : List Char) (limit offset depth : Nat) : tooDeepFrom? limit offset depth none (chars ++ rest) =
      tooDeepFrom? limit (offset + chars.length) depth none rest := by
  induction chars generalizing offset with
  | nil => rfl
  | cons c chars ih =>
    have first := plain c List.mem_cons_self
    simp only [List.mem_cons, List.not_mem_nil, or_false, not_or] at first
    simp only [List.cons_append, tooDeepFrom?, first, or_self, if_false, List.length_cons,
      ih fun d member => plain d (List.mem_cons_of_mem c member)]
    rw [show offset + 1 + chars.length = offset + (chars.length + 1) by omega]

private theorem tooDeepFrom?_quoted {quote : Char} {content : List Char} (closed : quote ∉ content)
    (rest : List Char) (limit offset depth : Nat) : tooDeepFrom? limit offset depth (some quote) (content ++ quote :: rest) =
      tooDeepFrom? limit (offset + (content.length + 1)) depth none rest := by
  induction content generalizing offset with
  | nil => simp [tooDeepFrom?]
  | cons c content ih =>
    obtain ⟨other, closed⟩ := not_or.mp (mt List.mem_cons.mpr closed)
    simp only [List.cons_append, tooDeepFrom?, Ne.symm other, if_false, List.length_cons, ih closed]
    rw [show offset + 1 + (content.length + 1) = offset + (content.length + 1 + 1) by omega]

private theorem plain_of_class {class_ : Char → Bool} (outside : ['"', '\'', '(', ')'].any class_ = false)
    {chars : List Char} (all : ∀ c ∈ chars, class_ c = true) : ∀ c ∈ chars, c ∉ ['"', '\'', '(', ')'] := by
  intro c member mark
  exact absurd ((outside_of_any outside c mark).symm.trans (all c member)) nofun

def numeric (c : Char) : Bool := c.isDigit || c == '.' || c == 'e' || c == 'E' || c == '+' || c == '-'

theorem IsNumber.numeric {numeral : Numeral} (valid : IsNumber numeral) : ∀ c ∈ numeral.chars, numeric c = true := by
  have digits : ∀ {chars : List Char}, (∀ c ∈ chars, c.isDigit = true) → ∀ c ∈ chars, Grammar.numeric c = true := by
    intro chars all c member
    simp [Grammar.numeric, all c member]
  obtain ⟨whole, fraction, power⟩ := numeral
  obtain ⟨mantissa, valid⟩ := valid
  intro c member
  simp only [Numeral.chars, List.mem_append] at member
  rcases member with (member | member) | member
  · exact digits mantissa.whole_digits c member
  · cases mantissa with
    | whole some => cases member
    | mixed some more =>
      rcases List.mem_cons.mp member with rfl | member
      · rfl
      · exact digits more c member
    | places some =>
      rcases List.mem_cons.mp member with rfl | member
      · rfl
      · exact digits some.2 c member
  · cases valid with
    | absent => cases member
    | present exponential signed some =>
      rcases List.mem_cons.mp member with rfl | member
      · rcases exponential with rfl | rfl <;> rfl
      · rcases List.mem_append.mp member with member | member
        · rcases signed with rfl | rfl | rfl
          · cases member
          · obtain rfl := List.mem_singleton.mp member
            rfl
          · obtain rfl := List.mem_singleton.mp member
            rfl
        · exact digits some.2 c member

theorem IsName.continues {letters : List Char} (valid : IsName letters) : ∀ c ∈ letters, continuesName c = true := by
  cases valid with
  | mk begins continues => exact List.forall_mem_cons.mpr ⟨beginsName_continues begins, continues⟩

theorem tooDeepFrom?_word {word : Word} (valid : word.Valid) (rest : List Char) (limit offset depth : Nat) :
    tooDeepFrom? limit offset depth none (word.chars ++ rest) =
      match nests? limit depth [word.token] with
      | some after => tooDeepFrom? limit (offset + word.chars.length) after none rest
      | none => some offset := by
  cases word with
  | number numeral => exact tooDeepFrom?_plain (plain_of_class (by decide) (IsNumber.numeric valid)) ..
  | name letters => exact tooDeepFrom?_plain (plain_of_class (by decide) (IsName.continues valid)) ..
  | operator sign =>
    have plain : sign.symbol ∉ ['"', '\'', '(', ')'] := by cases sign <;> decide
    exact tooDeepFrom?_plain (List.forall_mem_singleton.mpr plain) ..
  | relation sign =>
    have plain : ∀ c ∈ sign.symbol, c ∉ ['"', '\'', '(', ')'] := by cases sign <;> simp [Relation.symbol]
    exact tooDeepFrom?_plain plain ..
  | comma | closing => rfl
  | opening =>
    change (if depth < limit then _ else _) = _
    simp only [Word.token, nests?]
    by_cases below : depth < limit
    · rw [if_pos below, if_pos below]
      rfl
    · rw [if_neg below, if_neg below]
  | text quote content =>
    obtain ⟨sort, closed⟩ := valid
    have open_ : tooDeepFrom? limit offset depth none (quote :: (content ++ quote :: rest)) =
        tooDeepFrom? limit (offset + 1) depth (some quote) (content ++ quote :: rest) := by
      rcases sort with rfl | rfl <;> rfl
    simp only [Word.chars, List.cons_append, List.append_assoc, List.nil_append, open_, tooDeepFrom?_quoted closed,
      Word.token, nests?, List.length_cons, List.length_append, List.length_nil]
    rw [show offset + 1 + (content.length + 1) = offset + (content.length + (0 + 1) + 1) by omega]

theorem tooDeepFrom?_blanks {blanks : List Char} (blank : Blank blanks) (rest : List Char) (limit offset depth : Nat) :
    tooDeepFrom? limit offset depth none (blanks ++ rest) = tooDeepFrom? limit (offset + blanks.length) depth none rest :=
  tooDeepFrom?_plain (plain_of_class (by decide) blank) ..

theorem tooDeepFrom?_spaced {words : List Word} {text : List Char} (spaced : Spaced words text)
    (valid : ∀ word ∈ words, word.Valid) (apart : words.IsChain Word.Apart) (limit offset depth : Nat) :
    tooDeepFrom? limit offset depth none text = tooDeepWord? limit depth (Words.read offset 0 text).tokens := by
  induction spaced generalizing offset depth with
  | @nil blanks blank =>
    have read := read_blanks blank [] offset
    have passed := tooDeepFrom?_blanks blank [] limit offset depth
    rw [List.append_nil] at read passed
    rw [read, passed]
    rfl
  | @cons blanks word words text blank rest ih =>
    have later : ∀ next ∈ words, next.Valid := by
      intro next member
      exact valid next (List.mem_cons_of_mem word member)
    have head := valid word List.mem_cons_self
    rw [List.append_assoc, read_blanks blank, read_word head (rest.bounded apart later), tooDeepFrom?_blanks blank,
      tooDeepFrom?_word head, Words.after, tooDeepWord?_cons]
    cases nests? limit depth [word.token] with
    | some after => exact ih later apart.tail _ after
    | none => rfl

theorem tooDeepWord?_eq_none (limit depth : Nat) (placed : List Placed) :
    tooDeepWord? limit depth placed = none ↔ ∃ after, nests? limit depth (placed.map Placed.token) = some after := by
  induction placed generalizing depth with
  | nil => simp [tooDeepWord?, nests?]
  | cons word placed ih =>
    obtain ⟨offset, token⟩ := word
    cases token with
    | opening =>
      simp only [tooDeepWord?, List.map_cons, nests?]
      split
      · exact ih (depth + 1)
      · simp
    | closing => exact ih (depth - 1)
    | number | text | name | operator | relation | comma => exact ih depth

theorem nests?_append (limit depth : Nat) (first second : List Token) :
    nests? limit depth (first ++ second) = (nests? limit depth first).bind fun after => nests? limit after second := by
  induction first generalizing depth with
  | nil => rfl
  | cons token first ih =>
    cases token with
    | opening =>
      simp only [List.cons_append, nests?]
      split
      · exact ih (depth + 1)
      · rfl
    | closing => exact ih (depth - 1)
    | number | text | name | operator | relation | comma => exact ih depth

/-- Words that close all they open, and nest to a depth. -/
def Balanced (words : List Word) (nesting : Nat) : Prop := ∀ limit depth after, depth ≤ limit →
  (nests? limit depth (words.map Word.token) = some after ↔ depth + nesting ≤ limit ∧ after = depth)

theorem balanced_nil : Balanced [] 0 := by
  intro limit depth after within
  simp only [List.map_nil, nests?, Option.some.injEq]
  exact ⟨fun same => ⟨within, same.symm⟩, fun ⟨_, same⟩ => same.symm⟩

theorem Balanced.append {first second : List Word} {nesting nesting' : Nat} (left : Balanced first nesting)
    (right : Balanced second nesting') : Balanced (first ++ second) (max nesting nesting') := by
  intro limit depth after within
  rw [List.map_append, nests?_append, Option.bind_eq_some_iff]
  constructor
  · rintro ⟨middle, run, run'⟩
    obtain ⟨fits, rfl⟩ := (left limit depth middle within).mp run
    obtain ⟨fits', rfl⟩ := (right limit middle after within).mp run'
    exact ⟨by omega, rfl⟩
  · rintro ⟨fits, rfl⟩
    exact ⟨after, (left limit after after within).mpr ⟨by omega, rfl⟩, (right limit after after within).mpr ⟨by omega, rfl⟩⟩

theorem balanced_plain (word : Word) (opening : word ≠ .opening) (closing : word ≠ .closing) : Balanced [word] 0 := by
  cases word with
  | opening => exact absurd rfl opening
  | closing => exact absurd rfl closing
  | number | text | name | operator | relation | comma => exact balanced_nil

theorem Balanced.bracketed {words : List Word} {nesting : Nat} (inner : Balanced words nesting) :
    Balanced (.opening :: (words ++ [.closing])) (nesting + 1) := by
  intro limit depth after within
  simp only [List.map_cons, List.map_append, Word.token, List.map_nil, nests?]
  split
  · next below =>
    rw [nests?_append, Option.bind_eq_some_iff]
    constructor
    · rintro ⟨middle, run, run'⟩
      obtain ⟨fits, rfl⟩ := (inner limit (depth + 1) middle below).mp run
      cases run'
      exact ⟨by omega, rfl⟩
    · rintro ⟨fits, rfl⟩
      exact ⟨after + 1, (inner limit (after + 1) (after + 1) below).mpr ⟨by omega, rfl⟩, rfl⟩
  · constructor
    · nofun
    · rintro ⟨fits, -⟩
      omega

mutual
theorem Phrase.balanced {level : Nat} (phrase : Phrase level) : Balanced phrase.words phrase.nesting :=
  match phrase with
  | .alone sum => sum.balanced
  | .compared left relation right => by
    have after := (balanced_plain (.relation relation) nofun nofun).append right.balanced
    rw [Nat.zero_max] at after
    exact left.balanced.append after
  | .chain tier head terms => head.balanced.append terms.balanced
  | .signed sign valid atom => by
    cases sign with
    | none => exact atom.balanced
    | some sign =>
      have after := (balanced_plain (.operator sign) nofun nofun).append atom.balanced
      rw [Nat.zero_max] at after
      exact after
termination_by structural phrase

theorem Terms.balanced {level : Nat} (terms : Terms level) : Balanced terms.words terms.nesting :=
  match terms with
  | .nil => balanced_nil
  | .cons operator tier operand terms => by
    have after := (balanced_plain (.operator operator) nofun nofun).append
      (operand.balanced.append terms.balanced)
    rw [Nat.zero_max] at after
    exact after
termination_by structural terms

theorem Atom.balanced (atom : Atom) : Balanced atom.words atom.nesting :=
  match atom with
  | .number numeral _ => balanced_plain (.number numeral) nofun nofun
  | .text quote content _ => balanced_plain (.text quote content) nofun nofun
  | .field letters _ => balanced_plain (.name letters) nofun nofun
  | .call letters valid arguments => by
    have after := (balanced_plain (.name letters) nofun nofun).append arguments.balanced.bracketed
    rw [Nat.zero_max] at after
    exact after
  | .group inner => inner.balanced.bracketed
termination_by structural atom

theorem Arguments.balanced (arguments : Arguments) : Balanced arguments.words arguments.nesting :=
  match arguments with
  | .none => balanced_nil
  | .some first later => first.balanced.append later.balanced
termination_by structural arguments

theorem Later.balanced (later : Later) : Balanced later.words later.nesting :=
  match later with
  | .nil => balanced_nil
  | .cons argument later => by
    have after := (balanced_plain .comma nofun nofun).append (argument.balanced.append later.balanced)
    rw [Nat.zero_max] at after
    exact after
termination_by structural later
end

end Formula.Grammar
