import Formula.Proofs.Grammar

/-! Numerals are read to their end: a numeral of the grammar, before a text that cannot
lengthen it, is read with exactly its parts, and whatever is read is a numeral of the
grammar. A sign belongs to a numeral only between the mark of a power and a digit. -/

namespace Formula.Grammar

/-- A text that does not begin with a character of a class. -/
def Clear (class_ : Char → Bool) (text : List Char) : Prop := ∀ c ∈ text.head?, class_ c = false

theorem clear_nil {class_ : Char → Bool} : Clear class_ [] := nofun

theorem clear_cons {class_ : Char → Bool} {c : Char} {text : List Char} (outside : class_ c = false) :
    Clear class_ (c :: text) := by
  intro d first
  cases first
  exact outside

theorem Clear.mono {class_ wider : Char → Bool} {text : List Char} (clear : Clear wider text)
    (within : ∀ c, wider c = false → class_ c = false) : Clear class_ text := by
  intro c first
  exact within c (clear c first)

theorem takeWhile_append_clear {class_ : Char → Bool} {chars rest : List Char} (all : ∀ c ∈ chars, class_ c = true)
    (clear : Clear class_ rest) : (chars ++ rest).takeWhile class_ = chars := by
  rw [List.takeWhile_append_of_pos all]
  cases rest with
  | nil => simp
  | cons c rest => simp [clear c rfl]

theorem drop_takeWhile (class_ : Char → Bool) (text : List Char) :
    text.drop (text.takeWhile class_).length = text.dropWhile class_ := by
  have split := List.takeWhile_append_dropWhile (p := class_) (l := text)
  calc text.drop (text.takeWhile class_).length
      = (text.takeWhile class_ ++ text.dropWhile class_).drop (text.takeWhile class_).length := by rw [split]
    _ = text.dropWhile class_ := List.drop_left

theorem clear_dropWhile (class_ : Char → Bool) (text : List Char) : Clear class_ (text.dropWhile class_) := by
  intro c first
  have outside := List.head?_dropWhile_not class_ text
  rw [Option.mem_def.mp first] at outside
  exact outside

def lengthens (c : Char) : Bool := c.isDigit || Numeral.continues c

theorem Mantissa.whole_digits {whole fraction : List Char} (mantissa : Mantissa whole fraction) :
    ∀ c ∈ whole, c.isDigit = true := by
  cases mantissa with
  | whole some => exact some.2
  | mixed some more => exact some.2
  | places some => nofun

theorem Mantissa.some {whole fraction : List Char} (mantissa : Mantissa whole fraction) :
    ¬ (whole = [] ∧ fraction.length ≤ 1) := by
  rintro ⟨rfl, short⟩
  cases mantissa with
  | whole some => exact some.1 rfl
  | mixed some more => exact some.1 rfl
  | places some => exact some.1 (List.length_eq_zero_iff.mp (by simpa using short))

private theorem Mantissa.fractionOf_append {whole fraction tail : List Char} (mantissa : Mantissa whole fraction)
    (digit : Clear Char.isDigit tail) (point : Clear (· == '.') tail) :
    Numeral.fractionOf (fraction ++ tail) = fraction := by
  cases mantissa with
  | whole some =>
    cases tail with
    | nil => rfl
    | cons c tail =>
      have other : c ≠ '.' := by simpa using point c rfl
      simp [Numeral.fractionOf, other]
  | mixed some more => exact congrArg ('.' :: ·) (takeWhile_append_clear more digit)
  | places some => exact congrArg ('.' :: ·) (takeWhile_append_clear some.2 digit)

private theorem Mantissa.clear_fraction {whole fraction tail : List Char} (mantissa : Mantissa whole fraction)
    (digit : Clear Char.isDigit tail) : Clear Char.isDigit (fraction ++ tail) := by
  cases mantissa with
  | whole some => exact digit
  | mixed some more | places some => exact clear_cons rfl

theorem Power.clear {power rest : List Char} (valid : Power power) {class_ : Char → Bool} (clear : Clear class_ rest)
    (marks : class_ 'e' = false ∧ class_ 'E' = false) : Clear class_ (power ++ rest) := by
  cases valid with
  | absent => exact clear
  | present exponential signed some =>
    rcases exponential with rfl | rfl
    · exact clear_cons marks.1
    · exact clear_cons marks.2

private theorem signOf_append {sign digits rest : List Char} (signed : sign = [] ∨ sign = ['+'] ∨ sign = ['-'])
    (some : Digits digits) : Numeral.signOf (sign ++ (digits ++ rest)) = sign := by
  rcases signed with rfl | rfl | rfl
  · cases digits with
    | nil => exact absurd rfl some.1
    | cons c digits =>
      have digit := some.2 c List.mem_cons_self
      simp only [List.nil_append, List.cons_append]
      unfold Numeral.signOf
      split
      · next first => injection first with same; subst same; cases digit
      · next first => injection first with same; subst same; cases digit
      · rfl
  · rfl
  · rfl

private theorem Power.powerOf_append {power rest : List Char} (valid : Power power) (clear : Clear lengthens rest) :
    Numeral.powerOf (power ++ rest) = power := by
  cases valid with
  | absent =>
    cases rest with
    | nil => rfl
    | cons c rest =>
      have other := clear c rfl
      have mark : ¬ (c = 'e' ∨ c = 'E') := by
        rintro (rfl | rfl) <;> cases other
      simp [Numeral.powerOf, mark]
  | @present mark sign digits exponential signed some =>
    have last : Numeral.digitsOf (digits ++ rest) = digits :=
      takeWhile_append_clear some.2 (clear.mono fun c outside => (Bool.or_eq_false_iff.mp outside).1)
    have tail : (sign ++ (digits ++ rest)).drop sign.length = digits ++ rest := List.drop_left
    simp [Numeral.powerOf, signOf_append signed some, tail, last, exponential, some.1]

/-- A numeral is read whole where nothing lengthens it. -/
theorem ofText?_append {numeral : Numeral} {rest : List Char} (valid : IsNumber numeral) (clear : Clear lengthens rest) :
    Numeral.ofText? (numeral.chars ++ rest) = some numeral := by
  obtain ⟨whole, fraction, power⟩ := numeral
  obtain ⟨mantissa, valid⟩ := valid
  have digit : Clear Char.isDigit rest := clear.mono fun c outside => (Bool.or_eq_false_iff.mp outside).1
  have continues : Clear Numeral.continues rest := clear.mono fun c outside => (Bool.or_eq_false_iff.mp outside).2
  have point : Clear (· == '.') rest := continues.mono fun c outside => (Bool.or_eq_false_iff.mp outside).2
  have first : Numeral.digitsOf (whole ++ (fraction ++ (power ++ rest))) = whole :=
    takeWhile_append_clear mantissa.whole_digits (mantissa.clear_fraction (valid.clear digit ⟨rfl, rfl⟩))
  have second : Numeral.fractionOf (fraction ++ (power ++ rest)) = fraction :=
    mantissa.fractionOf_append (valid.clear digit ⟨rfl, rfl⟩) (valid.clear point ⟨rfl, rfl⟩)
  have stops : ¬ rest.head?.any Numeral.continues = true := by
    cases rest with
    | nil => simp
    | cons c rest => simp [continues c rfl]
  simp only [Numeral.ofText?, Numeral.chars, List.append_assoc, first, List.drop_left, second,
    valid.powerOf_append clear, mantissa.some, stops]
  simp

private theorem takeWhile_digits (text : List Char) : ∀ c ∈ Numeral.digitsOf text, c.isDigit = true :=
  List.all_eq_true.mp List.all_takeWhile

private theorem fractionOf_sound (text : List Char) (clear : Clear Char.isDigit text) :
    (∃ rest, text = Numeral.fractionOf text ++ rest ∧ Clear Char.isDigit rest) ∧
    (Numeral.fractionOf text = [] ∨
      ∃ places, Numeral.fractionOf text = '.' :: places ∧ ∀ c ∈ places, c.isDigit = true) := by
  unfold Numeral.fractionOf
  split
  · next rest =>
    refine ⟨⟨rest.dropWhile Char.isDigit, ?_, clear_dropWhile _ rest⟩, .inr ⟨_, rfl, takeWhile_digits rest⟩⟩
    exact congrArg ('.' :: ·) List.takeWhile_append_dropWhile.symm
  · exact ⟨⟨text, rfl, clear⟩, .inl rfl⟩

private theorem signOf_sound (text : List Char) : (∃ rest, text = Numeral.signOf text ++ rest) ∧
    (Numeral.signOf text = [] ∨ Numeral.signOf text = ['+'] ∨ Numeral.signOf text = ['-']) := by
  unfold Numeral.signOf
  split
  · next rest => exact ⟨⟨rest, rfl⟩, .inr (.inl rfl)⟩
  · next rest => exact ⟨⟨rest, rfl⟩, .inr (.inr rfl)⟩
  · exact ⟨⟨text, rfl⟩, .inl rfl⟩

private theorem powerOf_sound (text : List Char) (clear : Clear Char.isDigit text) :
    (∃ rest, text = Numeral.powerOf text ++ rest ∧ Clear Char.isDigit rest) ∧ Power (Numeral.powerOf text) := by
  cases text with
  | nil => exact ⟨⟨[], rfl, clear⟩, .absent⟩
  | cons mark text =>
    simp only [Numeral.powerOf]
    split
    · next found =>
      obtain ⟨⟨rest, same⟩, signed⟩ := signOf_sound text
      refine ⟨⟨rest.dropWhile Char.isDigit, ?_, clear_dropWhile _ rest⟩,
        .present found.1 signed ⟨found.2, takeWhile_digits _⟩⟩
      have tail : text.drop (Numeral.signOf text).length = rest := by
        conv => lhs; arg 2; rw [same]
        exact List.drop_left
      calc mark :: text = mark :: (Numeral.signOf text ++ rest) := congrArg (mark :: ·) same
        _ = mark :: Numeral.signOf text ++ Numeral.digitsOf rest ++ rest.dropWhile Char.isDigit := by
          rw [List.append_assoc, Numeral.digitsOf, List.takeWhile_append_dropWhile]
          rfl
        _ = _ := by rw [tail]
    · exact ⟨⟨mark :: text, rfl, clear⟩, .absent⟩

private theorem mantissa_of_parts {whole fraction : List Char} (digits : ∀ c ∈ whole, c.isDigit = true)
    (point : fraction = [] ∨ ∃ places, fraction = '.' :: places ∧ ∀ c ∈ places, c.isDigit = true)
    (some : ¬ (whole = [] ∧ fraction.length ≤ 1)) : Mantissa whole fraction := by
  by_cases empty : whole = []
  · subst empty
    rcases point with rfl | ⟨places, rfl, more⟩
    · exact absurd ⟨rfl, Nat.zero_le 1⟩ some
    · refine .places ⟨?_, more⟩
      rintro rfl
      exact some ⟨rfl, Nat.le_refl 1⟩
  · rcases point with rfl | ⟨places, rfl, more⟩
    · exact .whole ⟨empty, digits⟩
    · exact .mixed ⟨empty, digits⟩ more

/-- Whatever is read as a numeral is one of the grammar, stands at the beginning, and is not
lengthened by what follows. -/
theorem ofText?_sound {text : List Char} {numeral : Numeral} (read : Numeral.ofText? text = some numeral) :
    IsNumber numeral ∧ ∃ rest, text = numeral.chars ++ rest ∧ Clear lengthens rest := by
  simp only [Numeral.ofText?] at read
  split at read
  · cases read
  · next present =>
    split at read
    · cases read
    · next stops =>
      cases read
      have first : text.drop (Numeral.digitsOf text).length = text.dropWhile Char.isDigit := drop_takeWhile _ text
      rw [first] at present stops ⊢
      obtain ⟨⟨later, fraction, digit⟩, point⟩ :=
        fractionOf_sound (text.dropWhile Char.isDigit) (clear_dropWhile Char.isDigit text)
      have second : (text.dropWhile Char.isDigit).drop
          (Numeral.fractionOf (text.dropWhile Char.isDigit)).length = later := by
        conv => lhs; arg 2; rw [fraction]
        exact List.drop_left
      rw [second] at stops ⊢
      obtain ⟨⟨rest, power, digit⟩, valid⟩ := powerOf_sound later digit
      have third : later.drop (Numeral.powerOf later).length = rest := by
        conv => lhs; arg 2; rw [power]
        exact List.drop_left
      rw [third] at stops
      have clear : Clear lengthens rest := by
        intro c first
        rw [Option.mem_def.mp first] at stops
        exact Bool.or_eq_false_iff.mpr ⟨digit c first, by simpa using stops⟩
      refine ⟨⟨mantissa_of_parts (takeWhile_digits text) point present, valid⟩, rest, ?_, clear⟩
      calc text = Numeral.digitsOf text ++ text.dropWhile Char.isDigit := List.takeWhile_append_dropWhile.symm
        _ = Numeral.digitsOf text ++ (Numeral.fractionOf (text.dropWhile Char.isDigit) ++ later) := by rw [← fraction]
        _ = Numeral.digitsOf text ++ (Numeral.fractionOf (text.dropWhile Char.isDigit) ++
            (Numeral.powerOf later ++ rest)) := by rw [← power]
        _ = _ := by simp only [Numeral.chars, List.append_assoc]

end Formula.Grammar
