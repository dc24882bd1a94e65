import Formula.Proofs.Overflow
import Formula.Proofs.Reached
import Formula.Proofs.Writing

/-! Formulas are put together from left to right. The head of a chain comes before its terms,
the left side of a comparison before the right one, and each argument before the next; the
first numeral that is too large ends the building. So it is the leftmost one of the whole
text, wherever in the formula it stands, and not only the first of some part. -/

namespace Formula.Grammar

theorem finite_iff_tooLarge {words : List Word} :
    Finite words ↔ ∀ numeral, Word.number numeral ∈ words → ¬ numeral.TooLarge := by
  constructor
  · intro finite numeral member
    exact Numeral.isFinite_toFloat_iff.mp (finite numeral member)
  · intro each numeral member
    exact Numeral.isFinite_toFloat_iff.mpr (each numeral member)

/-- The first numeral of some words that is too large, and the words before it. -/
structure FirstTooLarge (words before : List Word) (numeral : Numeral) : Prop where
  stands : before ++ [.number numeral] <+: words
  tooLarge : numeral.TooLarge
  earlier : Finite before

abbrev Build := Except (List Word × Numeral)

mutual
def Phrase.build {level : Nat} : List Word → Phrase level → Build Expr
  | before, .alone sum => sum.build before
  | before, .compared left relation right => do
    let first ← left.build before
    let second ← right.build (before ++ left.words ++ [.relation relation])
    return .comparison first relation second
  | before, .chain _ head terms => do
    let first ← head.build before
    let later ← terms.build (before ++ head.words)
    return joined first later
  | before, .signed sign _ atom => do
    let operand ← atom.build (before ++ signWords sign)
    return .signed sign operand
termination_by structural _ phrase => phrase

def Terms.build {level : Nat} : List Word → Terms level → Build (List (Operator × Expr))
  | _, .nil => return []
  | before, .cons operator _ operand terms => do
    let first ← operand.build (before ++ [.operator operator])
    let later ← terms.build (before ++ [.operator operator] ++ operand.words)
    return (operator, first) :: later
termination_by structural _ terms => terms

def Atom.build : List Word → Atom → Build Expr
  | before, .number numeral _ =>
    if numeral.toFloat.isFinite then return .literal (.number numeral.toFloat) else throw (before, numeral)
  | _, .text _ content _ => return .literal (.text (.ofList content))
  | _, .field letters _ => return .field (.ofList letters)
  | before, .call letters _ arguments => do
    let exprs ← arguments.build (before ++ [.name letters, .opening])
    return .call (.ofList letters) exprs
  | before, .group inner => do
    let expr ← inner.build (before ++ [.opening])
    return .group expr
termination_by structural _ atom => atom

def Arguments.build : List Word → Arguments → Build (List Expr)
  | _, .none => return []
  | before, .some first later => do
    let expr ← first.build before
    let exprs ← later.build (before ++ first.words)
    return expr :: exprs
termination_by structural _ arguments => arguments

def Later.build : List Word → Later → Build (List Expr)
  | _, .nil => return []
  | before, .cons argument later => do
    let expr ← argument.build (before ++ [.comma])
    let exprs ← later.build (before ++ [.comma] ++ argument.words)
    return expr :: exprs
termination_by structural _ later => later
end

/-- The building of something from words that stand after some others: it is done if all numbers
are finite, and ends at the first that is not. -/
inductive Built (before words : List Word) (whole : α) : Build α → Prop where
  | done (finite : Finite words) : Built before words whole (.ok whole)
  | ended {early numeral} (first : FirstTooLarge words early numeral) :
      Built before words whole (.error (before ++ early, numeral))

variable {α β : Type} {before words more : List Word}

theorem FirstTooLarge.append {early : List Word} {numeral : Numeral} (first : FirstTooLarge words early numeral)
    (more : List Word) : FirstTooLarge (words ++ more) early numeral where
  stands := first.stands.trans (List.prefix_append words more)
  tooLarge := first.tooLarge
  earlier := first.earlier

theorem FirstTooLarge.after {early : List Word} {numeral : Numeral} (first : FirstTooLarge more early numeral)
    (finite : Finite words) : FirstTooLarge (words ++ more) (words ++ early) numeral where
  stands := by
    rw [List.append_assoc]
    exact (List.prefix_append_right_inj words).mpr first.stands
  tooLarge := first.tooLarge
  earlier := finite_append finite first.earlier

theorem Built.after {whole : α} {outcome : Build α} (built : Built (before ++ words) more whole outcome)
    (finite : Finite words) : Built before (words ++ more) whole outcome := by
  cases built with
  | done finite' => exact .done (finite_append finite finite')
  | ended first =>
    rw [List.append_assoc]
    exact .ended (first.after finite)

theorem Built.close {whole : α} {outcome : Build α} (built : Built before words whole outcome) (finite : Finite more) :
    Built before (words ++ more) whole outcome := by
  cases built with
  | done finite' => exact .done (finite_append finite' finite)
  | ended first => exact .ended (first.append more)

theorem Built.map {part : α} {start : Build α} (built : Built before words part start) (make : α → β) :
    Built before words (make part) (start >>= fun value => .ok (make value)) := by
  cases built with
  | done finite => exact .done finite
  | ended first => exact .ended first

/-- What is built of some words and then of those after them is built of all. -/
theorem Built.bind {part : α} {whole : β} {start : Build α} {next : α → Build β} (built : Built before words part start)
    (later : Built (before ++ words) more whole (next part)) : Built before (words ++ more) whole (start >>= next) := by
  cases built with
  | done finite => exact later.after finite
  | ended first => exact .ended (first.append more)

private theorem finite_signWords (sign : Option Operator) : Finite (signWords sign) := by
  cases sign with
  | none => exact nofun
  | some sign => exact finite_word (.operator sign) nofun

private theorem built_number (before : List Word) (numeral : Numeral) (valid : IsNumber numeral) :
    Built before [.number numeral] (Atom.number numeral valid).expr ((Atom.number numeral valid).build before) := by
  rw [Atom.build]
  split
  · next finite =>
    refine .done ?_
    intro other member
    cases List.mem_singleton.mp member
    exact finite
  · next infinite =>
    have tooLarge : numeral.TooLarge := by
      by_contra fits
      exact infinite (Numeral.isFinite_toFloat_iff.mpr fits)
    have ended : Built before [.number numeral] (Atom.number numeral valid).expr (.error (before ++ [], numeral)) :=
      .ended ⟨List.prefix_rfl, tooLarge, nofun⟩
    rwa [List.append_nil] at ended

mutual
theorem Phrase.built {level : Nat} (before : List Word) (phrase : Phrase level) :
    Built before phrase.words phrase.expr (phrase.build before) :=
  match phrase with
  | .alone sum => sum.built before
  | .compared left relation right =>
    have sign : Finite [.relation relation] := finite_word _ nofun
    have second := (right.built (before ++ left.words ++ [Word.relation relation])).map (Expr.comparison left.expr relation)
    (left.built before).bind (second.after sign)
  | .chain _ head terms => (head.built before).bind ((terms.built (before ++ head.words)).map _)
  | .signed sign _ atom => ((atom.built (before ++ signWords sign)).map _).after (finite_signWords sign)
termination_by structural phrase

theorem Terms.built {level : Nat} (before : List Word) (terms : Terms level) :
    Built before terms.words terms.exprs (terms.build before) :=
  match terms with
  | .nil => .done nofun
  | .cons operator _ operand terms =>
    have sign : Finite [.operator operator] := finite_word _ nofun
    have operands := (operand.built (before ++ [.operator operator])).bind
      ((terms.built (before ++ [.operator operator] ++ operand.words)).map _)
    operands.after sign
termination_by structural terms

theorem Atom.built (before : List Word) (atom : Atom) : Built before atom.words atom.expr (atom.build before) :=
  match atom with
  | .number numeral valid => built_number before numeral valid
  | .text .. => .done (finite_word _ nofun)
  | .field .. => .done (finite_word _ nofun)
  | .call letters _ arguments =>
    have opening : Finite [.name letters, .opening] :=
      finite_append (finite_word (.name letters) nofun) (finite_word .opening nofun)
    have closing : Finite [.closing] := finite_word .closing nofun
    have call := (arguments.built (before ++ [Word.name letters, Word.opening])).map (Expr.call (.ofList letters))
    (call.close closing).after opening
  | .group inner =>
    have opening : Finite [.opening] := finite_word .opening nofun
    have closing : Finite [.closing] := finite_word .closing nofun
    have group := (inner.built (before ++ [Word.opening])).map Expr.group
    (group.close closing).after opening
termination_by structural atom

theorem Arguments.built (before : List Word) (arguments : Arguments) :
    Built before arguments.words arguments.exprs (arguments.build before) :=
  match arguments with
  | .none => .done nofun
  | .some first later => (first.built before).bind ((later.built (before ++ first.words)).map _)
termination_by structural arguments

theorem Later.built (before : List Word) (later : Later) : Built before later.words later.exprs (later.build before) :=
  match later with
  | .nil => .done nofun
  | .cons argument later =>
    have comma : Finite [.comma] := finite_word .comma nofun
    have exprs := (argument.built (before ++ [.comma])).bind
      ((later.built (before ++ [.comma] ++ argument.words)).map _)
    exprs.after comma
termination_by structural later
end

/-- A word among others stands somewhere in each text that spaces them. -/
theorem Spaced.place {before after : List Word} {word : Word} {text : List Char}
    (spaced : Spaced (before ++ word :: after) text) :
    ∃ part rest, text = part ++ (word.chars ++ rest) ∧ Spaced before part ∧ Spaced after rest := by
  induction before generalizing text with
  | nil =>
    cases spaced with
    | @cons blanks _ _ rest blank later => exact ⟨blanks, rest, List.append_assoc .., .nil blank, later⟩
  | cons first before ih =>
    cases spaced with
    | @cons blanks _ _ text blank later =>
      obtain ⟨part, rest, rfl, spaced, spaced'⟩ := ih later
      exact ⟨blanks ++ first.chars ++ part, rest, (List.append_assoc ..).symm, .cons blank spaced, spaced'⟩

private theorem read_place {before after : List Word} {word : Word} {part rest : List Char} (spaced : Spaced before part)
    (later : Spaced after rest) (valid : ∀ each ∈ before ++ word :: after, each.Valid)
    (apart : (before ++ word :: after).IsChain Word.Apart) (offset : Nat) :
    ∃ placed following, (Words.read offset 0 (part ++ (word.chars ++ rest))).tokens =
      placed ++ ⟨offset + part.length, word.token⟩ :: following ∧ placed.map Placed.token = before.map Word.token := by
  induction spaced generalizing offset with
  | nil blank =>
    rw [List.nil_append] at valid apart
    obtain ⟨head, valid'⟩ := List.forall_mem_cons.mp valid
    rw [read_blanks blank, read_word head (later.bounded apart valid')]
    exact ⟨[], _, rfl, rfl⟩
  | @cons blanks first before part blank spaced ih =>
    rw [List.cons_append] at valid apart
    obtain ⟨head, valid'⟩ := List.forall_mem_cons.mp valid
    have whole : Spaced (before ++ word :: after) (part ++ (word.chars ++ rest)) :=
      spaced.append ((spaced_word word).append later)
    obtain ⟨placed, following, read, same⟩ := ih valid' apart.tail (offset + blanks.length + first.chars.length)
    rw [List.append_assoc, List.append_assoc, read_blanks blank, read_word head (whole.bounded apart valid')]
    refine ⟨⟨offset + blanks.length, first.token⟩ :: placed, following, ?_, congrArg (first.token :: ·) same⟩
    rw [Words.after, read, List.length_append, List.length_append]
    simp only [Nat.add_assoc, List.cons_append]

/-- The number that is out of range in a text is the first that the building ends at. -/
theorem firstOutOfRange?_of_first {text : List Char} {phrase : Phrase 0} (spaced : Spaced phrase.words text)
    {before : List Word} {numeral : Numeral} (first : FirstTooLarge phrase.words before numeral) :
    ∃ part rest, text = part ++ (numeral.chars ++ rest) ∧ Spaced before part ∧
      firstOutOfRange? text = some (part.length, .ofList numeral.chars) := by
  have valid := phrase.valid
  have apart := phrase.apart
  obtain ⟨after, words⟩ := first.stands
  have words : phrase.words = before ++ .number numeral :: after := by rw [← words, List.append_assoc, List.singleton_append]
  rw [words] at spaced valid apart
  obtain ⟨part, rest, rfl, spaced, later⟩ := spaced.place
  obtain ⟨placed, following, read, same⟩ := read_place spaced later valid apart 0
  refine ⟨part, rest, rfl, spaced, ?_⟩
  have infinite : ¬ numeral.toFloat.isFinite = true := fun finite => Numeral.isFinite_toFloat_iff.mp finite first.tooLarge
  have here : outOfRange? ⟨part.length, (Word.number numeral).token⟩ = some (part.length, .ofList numeral.chars) :=
    if_neg infinite
  rw [firstOutOfRange?_eq, Words.ofText, show (Words.read 0 0 _).tokens = _ from read, List.findSome?_append,
    (findSome?_outOfRange same).mpr first.earlier, Nat.zero_add, List.findSome?_cons, here]
  rfl

end Formula.Grammar
