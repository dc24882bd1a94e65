import Formula.Proofs.Building
import Formula.Proofs.Canonical
import Formula.Proofs.Refusal

/-! What a text is refused for first. A look at its characters alone comes before all else and
stops at the first bracket that opens a level too many, whatever stands before it; then the
grammar is asked, whatever the numbers are; and only then the numbers count, the leftmost
one that rounds to infinity first. Each refusal tells its place by line and column. -/

namespace Formula

/-- What is known at a place of a text from the characters before it: how many levels are open,
and the quote of the string that is open, if there is one. -/
structure Scan where
  depth : Nat
  quote : Option Char

namespace Scan

def start : Scan := ⟨0, none⟩

/-- A string ends with the quote that it begins with, and no bracket closes more than is open. -/
def step (scan : Scan) (c : Char) : Scan :=
  match scan.quote with
  | some quote => if c = quote then ⟨scan.depth, none⟩ else scan
  | none =>
    if c = '"' ∨ c = '\'' then ⟨scan.depth, some c⟩
    else if c = '(' then ⟨scan.depth + 1, none⟩
    else if c = ')' then ⟨scan.depth - 1, none⟩
    else scan

def after (scan : Scan) (chars : List Char) : Scan := chars.foldl step scan

/-- With the character at this offset, a bracket outside of strings, more levels are open than the
limit allows. -/
structure Beyond (scan : Scan) (limit : Nat) (text : List Char) (offset : Nat) : Prop where
  bracket : text[offset]? = some '('
  unquoted : (scan.after (text.take offset)).quote = none
  deep : limit < (scan.after (text.take offset)).depth + 1

variable {scan : Scan} {limit : Nat}

private theorem beyond_zero {c : Char} {rest : List Char} :
    scan.Beyond limit (c :: rest) 0 ↔ c = '(' ∧ scan.quote = none ∧ limit < scan.depth + 1 := by
  constructor
  · rintro ⟨bracket, unquoted, deep⟩
    exact ⟨Option.some.inj bracket, unquoted, deep⟩
  · rintro ⟨rfl, unquoted, deep⟩
    exact ⟨rfl, unquoted, deep⟩

private theorem beyond_succ {c : Char} {rest : List Char} {offset : Nat} :
    scan.Beyond limit (c :: rest) (offset + 1) ↔ (scan.step c).Beyond limit rest offset :=
  ⟨fun ⟨bracket, unquoted, deep⟩ => ⟨bracket, unquoted, deep⟩,
    fun ⟨bracket, unquoted, deep⟩ => ⟨bracket, unquoted, deep⟩⟩

private theorem tooDeepFrom?_cons (scan : Scan) (limit : Nat) (c : Char) (rest : List Char) (offset : Nat) :
    (scan.Beyond limit (c :: rest) 0 ∧ tooDeepFrom? limit offset scan.depth scan.quote (c :: rest) = some offset) ∨
      (¬ scan.Beyond limit (c :: rest) 0 ∧ tooDeepFrom? limit offset scan.depth scan.quote (c :: rest) =
        tooDeepFrom? limit (offset + 1) (scan.step c).depth (scan.step c).quote rest) := by
  rw [beyond_zero]
  cases quoted : scan.quote with
  | some quote =>
    refine .inr ⟨nofun, ?_⟩
    simp only [tooDeepFrom?, step, quoted]
    split
    · rfl
    · rw [quoted]
  | none =>
    simp only [tooDeepFrom?, step, quoted]
    by_cases opens : c = '"' ∨ c = '\''
    · have other : c ≠ '(' := by rcases opens with rfl | rfl <;> decide
      simp only [opens, if_true]
      exact .inr ⟨fun beyond => other beyond.1, trivial⟩
    · by_cases bracket : c = '('
      · subst bracket
        by_cases shallow : scan.depth < limit
        · refine .inr ⟨fun beyond => Nat.not_le_of_lt shallow (Nat.le_of_lt_succ beyond.2.2), ?_⟩
          simp only [opens, shallow, if_true, if_false]
        · refine .inl ⟨⟨rfl, trivial, by omega⟩, ?_⟩
          simp only [opens, shallow, if_true, if_false]
      · simp only [opens, bracket, if_false]
        refine .inr ⟨And.left, ?_⟩
        split
        · rfl
        · rw [quoted]

/-- The guard finds the first bracket beyond the limit, or none if there is none. -/
private theorem tooDeepFrom?_first (limit : Nat) (text : List Char) (scan : Scan) (base : Nat) :
    (tooDeepFrom? limit base scan.depth scan.quote text = none ∧ ∀ offset, ¬ scan.Beyond limit text offset) ∨
      ∃ offset, tooDeepFrom? limit base scan.depth scan.quote text = some (base + offset) ∧
        scan.Beyond limit text offset ∧ ∀ earlier < offset, ¬ scan.Beyond limit text earlier := by
  induction text generalizing scan base with
  | nil =>
    refine .inl ⟨?_, fun offset beyond => ?_⟩
    · cases scan.quote <;> rfl
    · cases beyond.bracket
  | cons c rest ih =>
    rcases tooDeepFrom?_cons scan limit c rest base with ⟨beyond, found⟩ | ⟨within, goes⟩
    · exact .inr ⟨0, found, beyond, fun earlier less => absurd less (Nat.not_lt_zero earlier)⟩
    rw [goes]
    have before : ∀ {last : Nat}, (∀ earlier < last, ¬ (scan.step c).Beyond limit rest earlier) →
        ∀ earlier < last + 1, ¬ scan.Beyond limit (c :: rest) earlier := by
      intro last none earlier less
      cases earlier with
      | zero => exact within
      | succ earlier => exact fun beyond => none earlier (Nat.lt_of_succ_lt_succ less) (beyond_succ.mp beyond)
    rcases ih (scan.step c) (base + 1) with ⟨none, each⟩ | ⟨offset, found, beyond, first⟩
    · exact .inl ⟨none, fun offset => before (fun earlier _ => each earlier) offset (Nat.lt_succ_self offset)⟩
    · refine .inr ⟨offset + 1, ?_, beyond_succ.mpr beyond, before first⟩
      rw [found]
      congr 1
      omega

private theorem tooDeep?_first (limit : Nat) (text : List Char) :
    (tooDeep? limit text = none ∧ ∀ offset, ¬ start.Beyond limit text offset) ∨
      ∃ offset, tooDeep? limit text = some offset ∧ start.Beyond limit text offset ∧
        ∀ earlier < offset, ¬ start.Beyond limit text earlier := by
  have first := tooDeepFrom?_first limit text start 0
  simp only [Nat.zero_add] at first
  exact first

end Scan

open Grammar

/-- A text is refused for a fault at the place of the character with this offset. -/
def RefusedAt (limit : Nat) (text : String) (fault : Fault) (offset : Nat) : Prop :=
  ∃ position, compile limit text = .error ⟨fault, position⟩ ∧ PlaceAt text.toList position offset

theorem refusedAt_of_compile {limit : Nat} {text : String} {fault : Fault} {offset : Nat}
    (refused : compile limit text = .error ⟨fault, .ofOffset text.toList offset⟩) (within : offset ≤ text.toList.length) :
    RefusedAt limit text fault offset := ⟨_, refused, placeAt_ofOffset within⟩

section

variable {limit : Nat} {text : String} (shallow : tooDeep? limit text.toList = none)
include shallow

theorem refusedAt_unexpected (rejected : ¬ Accepted text.toList) :
    ∃ expected offset, parse text.toList = .error (offset, expected) ∧
      RefusedAt limit text (.unexpected expected) offset ∧ ∃ rest, Accepted (text.toList.take offset ++ rest) := by
  cases parsed : parse text.toList with
  | ok expr => exact absurd (accepted_iff_parse.mpr ⟨expr, parsed⟩) rejected
  | error failure =>
    obtain ⟨offset, expected⟩ := failure
    obtain ⟨words, state, stuck, -⟩ := parse_eq_error parsed
    refine ⟨expected, offset, rfl, refusedAt_of_compile ?_ stuck.within,
      exists_accepted_append stuck.lexed.spaced stuck.lexed.valid stuck.reads⟩
    simp only [compile, compileChars, shallow, parsed]

variable {phrase : Phrase 0} (spaced : Spaced phrase.words text.toList)
include spaced

theorem compile_of_finite (finite : Finite phrase.words) : compile limit text = .ok phrase.expr := by
  simp only [compile, compileChars, shallow, parse_spaced phrase spaced, (firstOutOfRange?_spaced phrase spaced).mpr finite]

/-- The numeral that the building ends at is the one that a text is refused for. -/
theorem refusedAt_outOfRange {before : List Word} {numeral : Numeral} (first : FirstTooLarge phrase.words before numeral) :
    ∃ part rest, text.toList = part ++ (numeral.chars ++ rest) ∧ Spaced before part ∧
      RefusedAt limit text (.outOfRange (.ofList numeral.chars)) part.length := by
  obtain ⟨part, rest, split, placed, found⟩ := firstOutOfRange?_of_first spaced first
  refine ⟨part, rest, split, placed, refusedAt_of_compile ?_ ?_⟩
  · simp only [compile, compileChars, shallow, parse_spaced phrase spaced, found]
  · rw [split, List.length_append]
    exact Nat.le_add_right ..

end

namespace Expr

private theorem regular_of_mem_terms {terms : List (Operator × Expr)} (regular : termsRegular terms) {operand : Expr}
    (member : operand ∈ terms.map Prod.snd) : operand.Regular := by
  induction terms with
  | nil => cases member
  | cons term terms ih =>
    rcases List.mem_cons.mp member with rfl | member
    · exact regular.1
    · exact ih regular.2 member

private theorem regular_of_mem_arguments {arguments : List Expr} (regular : argumentsRegular arguments) {argument : Expr}
    (member : argument ∈ arguments) : argument.Regular := by
  induction arguments with
  | nil => cases member
  | cons first arguments ih =>
    rcases List.mem_cons.mp member with rfl | member
    · exact regular.1
    · exact ih regular.2 member

theorem Regular.part {expr part : Expr} (regular : expr.Regular) (member : part ∈ expr.parts) : part.Regular := by
  cases expr with
  | literal | field => cases member
  | chain head terms =>
    obtain ⟨-, -, -, -, first, later⟩ := regular
    rcases List.mem_cons.mp member with rfl | member
    · exact first
    · exact regular_of_mem_terms later member
  | comparison left relation right =>
    obtain ⟨-, -, first, second⟩ := regular
    rcases List.mem_pair.mp member with rfl | rfl
    · exact first
    · exact second
  | group inner =>
    obtain rfl := List.mem_singleton.mp member
    exact regular
  | call name arguments => exact regular_of_mem_arguments regular member

theorem Regular.at? {expr target : Expr} {path : List Nat} (regular : expr.Regular) (present : expr.at? path = some target) :
    target.Regular := by
  induction path generalizing expr with
  | nil => exact Option.some.inj present ▸ regular
  | cons index path ih =>
    obtain ⟨part, here, present⟩ := exists_part_of_at? present
    exact ih (regular.part (List.mem_of_getElem? here)) present

end Expr

/-- A text is refused for what comes first: a bracket that opens a level too many, whatever stands
before it; else for its grammar, whatever its numbers are, at a place up to which it could still
become a formula; else for the leftmost of its numbers that rounds to infinity, in whatever part
it stands. A text that nothing speaks against has a formula, and all numbers in this are finite. -/
theorem compile_stages (limit : Nat) (text : String) :
    ((∃ offset, Scan.start.Beyond limit text.toList offset) → ∃ offset, Scan.start.Beyond limit text.toList offset ∧
      (∀ earlier < offset, ¬ Scan.start.Beyond limit text.toList earlier) ∧ RefusedAt limit text (.tooDeep limit) offset) ∧
    ((∀ offset, ¬ Scan.start.Beyond limit text.toList offset) →
      (¬ Accepted text.toList → ∃ expected offset, parse text.toList = .error (offset, expected) ∧
        RefusedAt limit text (.unexpected expected) offset ∧ ∃ rest, Accepted (text.toList.take offset ++ rest)) ∧
      ∀ phrase : Phrase 0, Spaced phrase.words text.toList →
        ((∃ numeral, .number numeral ∈ phrase.words ∧ numeral.toFloat = Number.infinity .positive) →
          ∃ before numeral part rest, FirstTooLarge phrase.words before numeral ∧ phrase.build [] = .error (before, numeral) ∧
            text.toList = part ++ (numeral.chars ++ rest) ∧ Spaced before part ∧
            RefusedAt limit text (.outOfRange (.ofList numeral.chars)) part.length) ∧
        ((∀ numeral, .number numeral ∈ phrase.words → numeral.toFloat ≠ Number.infinity .positive) →
          compile limit text = .ok phrase.expr ∧ phrase.build [] = .ok phrase.expr ∧
            ∀ path x, phrase.expr.at? path = some (.literal (.number x)) → x.isFinite = true)) := by
  rcases Scan.tooDeep?_first limit text.toList with ⟨shallow, within⟩ | ⟨offset, found, beyond, first⟩
  · refine ⟨?_, fun _ => ⟨refusedAt_unexpected shallow, ?_⟩⟩
    · rintro ⟨offset, beyond⟩
      exact absurd beyond (within offset)
    intro phrase spaced
    have built := phrase.built []
    generalize phrase.build [] = outcome at built
    cases built with
    | done finite =>
      refine ⟨?_, fun _ => ⟨compile_of_finite shallow spaced finite, rfl, ?_⟩⟩
      · rintro ⟨numeral, member, infinite⟩
        exact absurd (Numeral.toFloat_eq_infinity_iff.mp infinite) (finite_iff_tooLarge.mp finite numeral member)
      · intro path x present
        exact ((phrase.canonical finite).regular.at? present).1
    | @ended early numeral first =>
      refine ⟨fun _ => ?_, fun each => ?_⟩
      · obtain ⟨part, rest, refused⟩ := refusedAt_outOfRange shallow spaced first
        exact ⟨early, numeral, part, rest, first, rfl, refused⟩
      · have member := first.stands.subset (List.mem_append_right early List.mem_cons_self)
        exact absurd (Numeral.toFloat_eq_infinity_iff.mpr first.tooLarge) (each numeral member)
  · refine ⟨fun _ => ⟨offset, beyond, first, ?_⟩, fun within => absurd beyond (within offset)⟩
    have inside := (List.getElem?_eq_some_iff.mp beyond.bracket).1
    apply refusedAt_of_compile
    · simp only [compile, compileChars, found]
    · exact Nat.le_of_lt inside

/-- A bracket too many counts before the stray one, a stray bracket before the large number, and
of two large numbers the first. -/
theorem compile_stages_ordered :
    (∃ offset, RefusedAt 0 "2e400 + ) (" (.tooDeep 0) offset) ∧
      (∃ expected offset, RefusedAt 0 "2e400 + )" (.unexpected expected) offset) ∧
      ∃ offset, RefusedAt 0 "1 < 2e400 + 1e999" (.outOfRange "2e400") offset := by
  have flat : ∀ {text : String}, '(' ∉ text.toList → ∀ offset, ¬ Scan.start.Beyond 0 text.toList offset :=
    fun without _ beyond => without (List.mem_of_getElem? beyond.bracket)
  refine ⟨?_, ?_, ?_⟩
  · have beyond : Scan.start.Beyond 0 "2e400 + ) (".toList 10 := ⟨rfl, rfl, by decide⟩
    obtain ⟨offset, -, -, refused⟩ := (compile_stages 0 "2e400 + ) (").1 ⟨10, beyond⟩
    exact ⟨offset, refused⟩
  · have rejected : ¬ Accepted "2e400 + )".toList := by
      intro accepted
      obtain ⟨expr, parsed⟩ := accepted_iff_parse.mp accepted
      cases parsed
    obtain ⟨expected, offset, -, refused, -⟩ := ((compile_stages 0 "2e400 + )").2 (flat (by decide))).1 rejected
    exact ⟨expected, offset, refused⟩
  · obtain ⟨phrase, spaced⟩ : Accepted "1 < 2e400 + 1e999".toList := accepted_iff_parse.mpr ⟨_, rfl⟩
    obtain ⟨large, fits⟩ := ((compile_stages 0 "1 < 2e400 + 1e999").2 (flat (by decide))).2 phrase spaced
    have leftmost : (compile 0 "1 < 2e400 + 1e999").map (fun _ => ()) = .error ⟨.outOfRange "2e400", ⟨1, 5⟩⟩ := by
      decide +kernel
    by_cases some : ∃ numeral, .number numeral ∈ phrase.words ∧ numeral.toFloat = Number.infinity .positive
    · obtain ⟨-, numeral, part, -, -, -, -, -, position, error, place⟩ := large some
      rw [error] at leftmost
      have quoted : Fault.outOfRange (.ofList numeral.chars) = .outOfRange "2e400" :=
        congrArg CompileError.fault (Except.error.inj leftmost)
      rw [quoted] at error
      exact ⟨part.length, position, error, place⟩
    · obtain ⟨compiled, -⟩ := fits fun numeral member infinite => some ⟨numeral, member, infinite⟩
      rw [compiled] at leftmost
      cases leftmost

end Formula
