import Formula.Proofs.Derivable
import Formula.Proofs.Numerals

/-! The lexer finds the words of a text wherever a formula can have them. Two words that
are written together could be read as one only if both are numbers or names, or both are
relations; the reader accepts no such pair, so the words of a derivation are found again in
every text that spaces them. -/

namespace Formula.Grammar

/-- A text that cannot lengthen the word before it. -/
def Word.Bounded : Word → List Char → Prop
  | .number _, rest => Clear lengthens rest
  | .name _, rest => Clear continuesName rest
  | .relation .less, rest | .relation .greater, rest => Clear (· == '=') rest
  | _, _ => True

theorem bounded_relation {relation : Relation} {rest : List Char} (clear : Clear (· == '=') rest) :
    (Word.relation relation).Bounded rest := by
  cases relation with
  | less | greater => exact clear
  | atMost | atLeast | equal | unequal => trivial

theorem IsNumber.begins {numeral : Numeral} (valid : IsNumber numeral) :
    ∃ c later, numeral.chars = c :: later ∧ (c.isDigit = true ∨ c = '.') := by
  obtain ⟨whole, fraction, power⟩ := numeral
  obtain ⟨mantissa, -⟩ := valid
  cases mantissa with
  | whole some | mixed some more =>
    cases whole with
    | nil => exact absurd rfl some.1
    | cons c whole => exact ⟨c, _, rfl, .inl (some.2 c List.mem_cons_self)⟩
  | places some => exact ⟨'.', _, rfl, .inr rfl⟩

def marks : List Char := ['<', '>', '=', '!', '(', ')', ',', '"', '\'', '+', '-', '*', '/', '%', '^']

theorem outside_of_any {class_ : Char → Bool} {chars : List Char} (outside : chars.any class_ = false) :
    ∀ c ∈ chars, class_ c = false := by
  intro c member
  exact Bool.eq_false_iff.mpr (List.any_eq_false.mp outside c member)

private theorem ofChar?_other {c : Char} (other : ∀ d ∈ marks, c ≠ d) : Operator.ofChar? c = none := by
  unfold Operator.ofChar?
  split <;> first | rfl | exact absurd rfl (other _ (by decide))

private theorem first?_other {c : Char} (rest : List Char) (plain : c.isDigit = true ∨ c = '.' ∨ beginsName c = true) :
    Token.first? (c :: rest) = (Token.number? (c :: rest)).or (Token.word? (c :: rest)) := by
  have other : ∀ d ∈ marks, c ≠ d := by
    have plainless : ∀ d ∈ marks, (d.isDigit || d == '.' || beginsName d) = false := outside_of_any (by decide)
    rintro d member rfl
    have plain : (c.isDigit || c == '.' || beginsName c) = true := by simpa [or_assoc] using plain
    rw [plainless c member] at plain
    cases plain
  unfold Token.first?
  split
  case h_12 same =>
    injection same with first last
    subst first last
    simp only [ofChar?_other other]
  case h_13 same => cases same
  all_goals
    next same =>
      injection same with first
      exact absurd first (other _ (by decide))

private theorem number?_append {numeral : Numeral} {rest : List Char} (valid : IsNumber numeral)
    (bounded : Clear lengthens rest) : Token.first? (numeral.chars ++ rest) =
      some (.number (.ofList numeral.chars) numeral.toFloat, numeral.chars.length) := by
  obtain ⟨c, later, same, begins⟩ := valid.begins
  have first : Token.number? (numeral.chars ++ rest) =
      some (.number (.ofList numeral.chars) numeral.toFloat, numeral.chars.length) := by
    rw [Token.number?, ofText?_append valid bounded]
    rfl
  have other : Token.first? (numeral.chars ++ rest) =
      (Token.number? (numeral.chars ++ rest)).or (Token.word? (numeral.chars ++ rest)) := by
    rw [same, List.cons_append]
    exact first?_other _ (begins.imp_right .inl)
  rw [other, first]
  rfl

theorem beginsName_continues {c : Char} (begins : beginsName c = true) : continuesName c = true := by
  simp only [beginsName, continuesName, Char.isAlphanum, Bool.or_eq_true] at begins ⊢
  exact begins.imp_left .inl

private theorem letter_iff_toNat {c : Char} :
    c.isAlpha = true ↔ (65 ≤ c.toNat ∧ c.toNat ≤ 90) ∨ (97 ≤ c.toNat ∧ c.toNat ≤ 122) := by
  have letter : c.isAlpha = (decide ('A'.val ≤ c.val ∧ c.val ≤ 'Z'.val) ||
      (decide ('a'.val ≤ c.val) && decide (c.val ≤ 'z'.val))) := rfl
  simp only [letter, Bool.or_eq_true, Bool.and_eq_true, decide_eq_true_eq, UInt32.le_iff_toNat_le]
  rfl

theorem not_digit_of_beginsName {c : Char} (begins : beginsName c = true) : c.isDigit = false := by
  refine Bool.eq_false_iff.mpr fun digit => ?_
  obtain ⟨least, most⟩ : 48 ≤ c.toNat ∧ c.toNat ≤ 57 := Char.isDigit_iff_toNat.mp digit
  obtain letter | rfl : c.isAlpha = true ∨ c = '_' := by simpa [beginsName] using begins
  · rcases letter_iff_toNat.mp letter with letter | letter <;> omega
  · revert digit
    decide

private theorem number?_eq_none {c : Char} {rest : List Char} (begins : beginsName c = true) :
    Token.number? (c :: rest) = none := by
  have digit : c.isDigit = false := not_digit_of_beginsName begins
  have point : c ≠ '.' := by
    rintro rfl
    exact absurd begins (by decide)
  simp [Token.number?, Numeral.ofText?, Numeral.digitsOf, Numeral.fractionOf, digit, point]

private theorem word?_append {letters rest : List Char} (valid : IsName letters) (bounded : Clear continuesName rest) :
    Token.first? (letters ++ rest) = some (.name (.ofList letters), letters.length) := by
  cases valid with
  | @mk first later begins continues =>
    have all : ∀ c ∈ first :: later, continuesName c = true := by
      intro c member
      cases member with
      | head => exact beginsName_continues begins
      | tail _ member => exact continues c member
    have taken : (first :: (later ++ rest)).takeWhile continuesName = first :: later := takeWhile_append_clear all bounded
    rw [List.cons_append, first?_other _ (.inr (.inr begins)), number?_eq_none begins]
    simp [Token.word?, taken, begins]

private theorem quoted?_append {quote : Char} {content rest : List Char} (closed : quote ∉ content) :
    Token.quoted? quote (content ++ quote :: rest) = some (.text (.ofList content), content.length + 2) := by
  have all : ∀ c ∈ content, (c != quote) = true := by
    intro c member
    simp only [bne_iff_ne, ne_eq]
    rintro rfl
    exact closed member
  have taken : (content ++ quote :: rest).takeWhile (· != quote) = content :=
    takeWhile_append_clear all (clear_cons (by simp))
  simp [Token.quoted?, taken]

/-- A word is the token that a text begins with, if the rest cannot lengthen it. -/
theorem first?_append {word : Word} {rest : List Char} (valid : word.Valid) (bounded : word.Bounded rest) :
    Token.first? (word.chars ++ rest) = some (word.token, word.chars.length) := by
  cases word with
  | number numeral => exact number?_append valid bounded
  | text quote content =>
    rcases valid with ⟨rfl | rfl, closed⟩
    · simp only [Word.chars, List.cons_append, List.append_assoc, List.nil_append]
      exact (quoted?_append closed).trans (by simp [Word.token])
    · simp only [Word.chars, List.cons_append, List.append_assoc, List.nil_append]
      exact (quoted?_append closed).trans (by simp [Word.token])
  | name letters => exact word?_append valid bounded
  | operator sign => cases sign <;> rfl
  | relation sign =>
    cases sign with
    | atMost | atLeast | equal | unequal => rfl
    | less | greater =>
      have bounded : Clear (· == '=') rest := bounded
      cases rest with
      | nil => rfl
      | cons c rest =>
        have other : c ≠ '=' := by simpa using bounded c rfl
        simp [Word.chars, Relation.symbol, Token.first?, Word.token, other]
  | opening | closing | comma => rfl

private theorem number?_sound {text : List Char} {token : Token} {width : Nat}
    (read : Token.number? text = some (token, width)) :
    ∃ (word : Word) (rest : List Char), text = word.chars ++ rest ∧ word.Valid ∧ word.Bounded rest ∧
      word.token = token ∧ width = word.chars.length := by
  obtain ⟨numeral, found, same⟩ := Option.map_eq_some_iff.mp read
  obtain ⟨valid, rest, split, clear⟩ := ofText?_sound found
  cases same
  exact ⟨.number numeral, rest, split, valid, clear, rfl, rfl⟩

private theorem word?_sound {text : List Char} {token : Token} {width : Nat}
    (read : Token.word? text = some (token, width)) :
    ∃ (word : Word) (rest : List Char), text = word.chars ++ rest ∧ word.Valid ∧ word.Bounded rest ∧
      word.token = token ∧ width = word.chars.length := by
  simp only [Token.word?] at read
  split at read
  · next begins =>
    cases text with
    | nil => cases begins
    | cons c text =>
      cases read
      have begins : beginsName c = true := by simpa using begins
      have letters : (c :: text).takeWhile continuesName = c :: text.takeWhile continuesName :=
        List.takeWhile_cons_of_pos (beginsName_continues begins)
      refine ⟨.name ((c :: text).takeWhile continuesName), (c :: text).dropWhile continuesName,
        List.takeWhile_append_dropWhile.symm, ?_, clear_dropWhile _ _, rfl, rfl⟩
      rw [letters]
      exact .mk begins (List.all_eq_true.mp List.all_takeWhile)
  · cases read

private theorem quoted?_sound {quote : Char} {text : List Char} {token : Token} {width : Nat}
    (sort : quote = '"' ∨ quote = '\'') (read : Token.quoted? quote text = some (token, width)) :
    ∃ (word : Word) (rest : List Char), quote :: text = word.chars ++ rest ∧ word.Valid ∧ word.Bounded rest ∧
      word.token = token ∧ width = word.chars.length := by
  simp only [Token.quoted?] at read
  split at read
  · cases read
  · next c rest found =>
    cases read
    rw [drop_takeWhile] at found
    have last : c = quote := by simpa using clear_dropWhile (· != quote) text c (by rw [found]; rfl)
    subst last
    refine ⟨.text c (text.takeWhile (· != c)), rest, ?_, ⟨sort, ?_⟩, trivial, rfl, ?_⟩
    · calc c :: text = c :: (text.takeWhile (· != c) ++ text.dropWhile (· != c)) := by
            rw [List.takeWhile_append_dropWhile]
        _ = _ := by simp [found, Word.chars]
    · intro member
      simpa using List.all_eq_true.mp List.all_takeWhile c member
    · simp [Word.chars]

private theorem ofChar?_sound {c : Char} {sign : Operator} (read : Operator.ofChar? c = some sign) :
    sign.symbol = c := by
  unfold Operator.ofChar? at read
  split at read <;> cases read <;> rfl

/-- Every token of the lexer is a word at the beginning of the text that what follows does not lengthen. -/
theorem first?_sound {text : List Char} {token : Token} {width : Nat} (read : Token.first? text = some (token, width)) :
    ∃ (word : Word) (rest : List Char), text = word.chars ++ rest ∧ word.Valid ∧ word.Bounded rest ∧
      word.token = token ∧ width = word.chars.length := by
  unfold Token.first? at read
  split at read
  case h_1 rest | h_2 rest | h_3 rest | h_4 rest =>
    cases read
    refine ⟨.relation _, rest, rfl, trivial, ?_, rfl, rfl⟩
    trivial
  case h_5 rest other | h_6 rest other =>
    cases read
    refine ⟨.relation _, rest, rfl, trivial, bounded_relation ?_, rfl, rfl⟩
    cases rest with
    | nil => exact clear_nil
    | cons c rest =>
      apply clear_cons
      simp only [beq_eq_false_iff_ne, ne_eq]
      rintro rfl
      exact other rest rfl
  case h_7 rest =>
    cases read
    exact ⟨.opening, rest, rfl, trivial, trivial, rfl, rfl⟩
  case h_8 rest =>
    cases read
    exact ⟨.closing, rest, rfl, trivial, trivial, rfl, rfl⟩
  case h_9 rest =>
    cases read
    exact ⟨.comma, rest, rfl, trivial, trivial, rfl, rfl⟩
  case h_10 => exact quoted?_sound (.inl rfl) read
  case h_11 => exact quoted?_sound (.inr rfl) read
  case h_12 c rest _ _ _ _ _ _ _ _ _ _ _ =>
    cases found : Operator.ofChar? c with
    | some sign =>
      rw [found] at read
      cases read
      exact ⟨.operator sign, rest, by rw [← ofChar?_sound found]; rfl, trivial, trivial, rfl, rfl⟩
    | none =>
      rw [found] at read
      rcases Option.or_eq_some_iff.mp read with number | ⟨-, name⟩
      · exact number?_sound number
      · exact word?_sound name
  case h_13 => cases read

end Formula.Grammar
