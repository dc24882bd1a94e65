import Formula.Proofs.Grammar

/-! A list of words has one derivation at most. What goes on after a phrase cannot belong
to it: its first word is no operator that binds as tight as the phrase, no relation after a
whole formula, and no bracket that would turn a name into a call. -/

namespace Formula.Grammar

/-- Whether a word after a phrase of a level could be part of a longer one. -/
def Word.Continues (level : Nat) : Word → Prop
  | .operator sign => level ≤ sign.precedence
  | .relation _ => level = 0
  | .opening => True
  | _ => False

def Stops (level : Nat) (words : List Word) : Prop := ∀ word ∈ words.head?, ¬ word.Continues level

theorem Stops.up {level : Nat} {words : List Word} (stops : Stops level words) : Stops (level + 1) words := by
  intro word first continues
  apply stops word first
  cases word with
  | operator sign => exact Nat.le_of_succ_le continues
  | relation sign => cases continues
  | opening => trivial
  | number _ | text _ _ | name _ | closing | comma => exact continues

private theorem stops_nil {level : Nat} : Stops level [] := nofun

private theorem stops_closing {level : Nat} {words : List Word} : Stops level (.closing :: words) := by
  intro word first
  cases first
  exact id

private theorem stops_comma {level : Nat} {words : List Word} : Stops level (.comma :: words) := by
  intro word first
  cases first
  exact id

private theorem stops_relation {level : Nat} {sign : Relation} {words : List Word} :
    Stops (level + 1) (.relation sign :: words) := by
  intro word first
  cases first
  exact Nat.succ_ne_zero level

/-- After an operand stands an operator of its own level, or what stops the level. -/
theorem Terms.stops {level : Nat} (terms : Terms level) {rest : List Word} (stops : Stops level rest) :
    Stops (level + 1) (terms.words ++ rest) := by
  cases terms with
  | nil => exact stops.up
  | cons operator tier operand terms =>
    intro word first continues
    cases first
    have : level + 1 ≤ operator.precedence := continues
    omega

theorem Later.stops {level : Nat} (later : Later) {rest : List Word} :
    Stops level (later.words ++ .closing :: rest) := by
  cases later with
  | nil => exact stops_closing
  | cons argument later => exact stops_comma

def Word.Starts : Word → Prop
  | .number _ | .text .. | .name _ | .opening => True
  | _ => False

theorem Atom.starts (atom : Atom) (rest : List Word) : ∃ word, (atom.words ++ rest).head? = some word ∧ word.Starts := by
  cases atom with
  | number numeral valid => exact ⟨_, rfl, trivial⟩
  | text quote content valid => exact ⟨_, rfl, trivial⟩
  | field letters valid => exact ⟨_, rfl, trivial⟩
  | call letters valid arguments => exact ⟨_, rfl, trivial⟩
  | group inner => exact ⟨_, rfl, trivial⟩

theorem Phrase.head_ne_closing {level : Nat} (phrase : Phrase level) (rest : List Word) :
    (phrase.words ++ rest).head? ≠ some .closing :=
  match phrase with
  | .alone sum => sum.head_ne_closing rest
  | .compared left relation right => by
    rw [Phrase.words, List.append_assoc]
    exact left.head_ne_closing _
  | .chain tier head terms => by
    rw [Phrase.words, List.append_assoc]
    exact head.head_ne_closing _
  | .signed none valid atom => by
    obtain ⟨word, first, starts⟩ := atom.starts rest
    intro closing
    cases first.symm.trans closing
    exact starts
  | .signed (some sign) valid atom => by simp [Phrase.words, signWords]
termination_by structural phrase

private theorem sign_unique (sign other : Option Operator) (atom atom' : Atom) {rest more : List Word}
    (same : signWords sign ++ (atom.words ++ rest) = signWords other ++ (atom'.words ++ more)) :
    sign = other ∧ atom.words ++ rest = atom'.words ++ more := by
  obtain ⟨word, first, starts⟩ := atom.starts rest
  obtain ⟨word', first', starts'⟩ := atom'.starts more
  cases sign with
  | none =>
    cases other with
    | none => exact ⟨rfl, same⟩
    | some other =>
      have heads := congrArg List.head? same
      cases first.symm.trans heads
      exact starts.elim
  | some sign =>
    cases other with
    | none =>
      have heads := congrArg List.head? same
      cases first'.symm.trans heads.symm
      exact starts'.elim
    | some other =>
      injection same with head same
      cases head
      exact ⟨rfl, same⟩

mutual
/-- Two phrases of one level at the beginning of the same words are the same phrase, if
what follows each of them belongs to neither. -/
theorem Phrase.unique {level : Nat} (phrase other : Phrase level) {rest more : List Word}
    (same : phrase.words ++ rest = other.words ++ more) (stops : Stops level rest) (halts : Stops level more) :
    phrase = other ∧ rest = more :=
  match phrase, other with
  | .alone sum, .alone sum' => by
    obtain ⟨rfl, rfl⟩ := sum.unique sum' same stops.up halts.up
    exact ⟨rfl, rfl⟩
  | .alone sum, .compared left relation right => by
    have same : sum.words ++ rest = left.words ++ (.relation relation :: (right.words ++ more)) := by
      simpa [Phrase.words] using same
    obtain ⟨rfl, rfl⟩ := sum.unique left same stops.up stops_relation
    exact absurd rfl (stops _ rfl)
  | .compared left relation right, .alone sum => by
    have same : left.words ++ (.relation relation :: (right.words ++ rest)) = sum.words ++ more := by
      simpa [Phrase.words] using same
    obtain ⟨rfl, rfl⟩ := left.unique sum same stops_relation halts.up
    exact absurd rfl (halts _ rfl)
  | .compared left relation right, .compared left' relation' right' => by
    have same : left.words ++ (.relation relation :: (right.words ++ rest)) =
        left'.words ++ (.relation relation' :: (right'.words ++ more)) := by
      simpa [Phrase.words] using same
    obtain ⟨rfl, tail⟩ := left.unique left' same stops_relation stops_relation
    injection tail with first tail
    cases first
    obtain ⟨rfl, rfl⟩ := right.unique right' tail stops.up halts.up
    exact ⟨rfl, rfl⟩
  | .chain tier head terms, .chain tier' head' terms' => by
    have same : head.words ++ (terms.words ++ rest) = head'.words ++ (terms'.words ++ more) := by
      simpa [Phrase.words] using same
    obtain ⟨rfl, tail⟩ := head.unique head' same (terms.stops stops) (terms'.stops halts)
    obtain ⟨rfl, rfl⟩ := terms.unique terms' tail stops halts
    exact ⟨rfl, rfl⟩
  | .signed sign valid atom, .signed sign' valid' atom' => by
    have same : signWords sign ++ (atom.words ++ rest) = signWords sign' ++ (atom'.words ++ more) := by
      simpa [Phrase.words] using same
    obtain ⟨rfl, tail⟩ := sign_unique sign sign' atom atom' same
    obtain ⟨rfl, rfl⟩ := atom.unique atom' tail stops halts
    exact ⟨rfl, rfl⟩
  | .chain tier _ _, .alone _ | .chain tier _ _, .compared .. | .alone _, .chain tier _ _
  | .compared .., .chain tier _ _ => absurd tier.1 (by decide)
  | .chain tier _ _, .signed .. | .signed .., .chain tier _ _ => absurd tier.2 (by decide)
termination_by structural phrase

theorem Terms.unique {level : Nat} (terms other : Terms level) {rest more : List Word}
    (same : terms.words ++ rest = other.words ++ more) (stops : Stops level rest) (halts : Stops level more) :
    terms = other ∧ rest = more :=
  match terms, other with
  | .nil, .nil => ⟨rfl, same⟩
  | .nil, .cons operator tier operand terms => by
    have same : rest = .operator operator :: (operand.words ++ terms.words ++ more) := same
    subst same
    exact absurd (Nat.le_of_eq tier.symm) (stops _ rfl)
  | .cons operator tier operand terms, .nil => by
    have same : .operator operator :: (operand.words ++ terms.words ++ rest) = more := same
    subst same
    exact absurd (Nat.le_of_eq tier.symm) (halts _ rfl)
  | .cons operator tier operand terms, .cons operator' tier' operand' terms' => by
    have same : Word.operator operator :: (operand.words ++ (terms.words ++ rest)) =
        .operator operator' :: (operand'.words ++ (terms'.words ++ more)) := by
      simpa [Terms.words] using same
    injection same with first later
    cases first
    obtain ⟨rfl, tail⟩ := operand.unique operand' later (terms.stops stops) (terms'.stops halts)
    obtain ⟨rfl, rfl⟩ := terms.unique terms' tail stops halts
    exact ⟨rfl, rfl⟩
termination_by structural terms

theorem Atom.unique (atom other : Atom) {rest more : List Word}
    (same : atom.words ++ rest = other.words ++ more) (stops : Stops 4 rest) (halts : Stops 4 more) :
    atom = other ∧ rest = more := by
  cases atom with
  | number numeral valid =>
    cases other <;> injection same with first same <;> cases first
    exact ⟨rfl, same⟩
  | text quote content valid =>
    cases other <;> injection same with first same <;> cases first
    exact ⟨rfl, same⟩
  | field letters valid =>
    cases other <;> injection same with first same <;> cases first
    case field.refl => exact ⟨rfl, same⟩
    case call.refl => exact absurd trivial (stops .opening (congrArg List.head? same))
  | call letters valid arguments =>
    cases other <;> injection same with first same <;> cases first
    case call.field.refl => exact absurd trivial (halts .opening (congrArg List.head? same.symm))
    case call.call.refl arguments' _ =>
      have same : arguments.words ++ .closing :: rest = arguments'.words ++ .closing :: more := by
        simpa using same
      obtain ⟨rfl, rfl⟩ := arguments.unique arguments' same
      exact ⟨rfl, rfl⟩
  | group inner =>
    cases other <;> injection same with first same <;> cases first
    case group inner' =>
      have same : inner.words ++ .closing :: rest = inner'.words ++ .closing :: more := by
        simpa using same
      obtain ⟨rfl, tail⟩ := inner.unique inner' same stops_closing stops_closing
      injection tail with _ tail
      exact ⟨rfl, tail⟩
termination_by structural atom

theorem Arguments.unique (arguments other : Arguments) {rest more : List Word}
    (same : arguments.words ++ .closing :: rest = other.words ++ .closing :: more) :
    arguments = other ∧ rest = more := by
  cases arguments with
  | none =>
    cases other with
    | none =>
      injection same with _ same
      exact ⟨rfl, same⟩
    | some first later =>
      have same : .closing :: rest = first.words ++ (later.words ++ .closing :: more) := by
        simpa [Arguments.words] using same
      exact absurd (congrArg List.head? same.symm) (first.head_ne_closing _)
  | some first later =>
    cases other with
    | none =>
      have same : first.words ++ (later.words ++ .closing :: rest) = .closing :: more := by
        simpa [Arguments.words] using same
      exact absurd (congrArg List.head? same) (first.head_ne_closing _)
    | some first' later' =>
      have same : first.words ++ (later.words ++ .closing :: rest) =
          first'.words ++ (later'.words ++ .closing :: more) := by
        simpa [Arguments.words] using same
      obtain ⟨rfl, tail⟩ := first.unique first' same later.stops later'.stops
      obtain ⟨rfl, rfl⟩ := later.unique later' tail
      exact ⟨rfl, rfl⟩
termination_by structural arguments

theorem Later.unique (later other : Later) {rest more : List Word}
    (same : later.words ++ .closing :: rest = other.words ++ .closing :: more) :
    later = other ∧ rest = more := by
  cases later with
  | nil =>
    cases other with
    | nil =>
      injection same with _ same
      exact ⟨rfl, same⟩
    | cons argument later => injection same with first; cases first
  | cons argument later =>
    cases other with
    | nil => injection same with first; cases first
    | cons argument' later' =>
      injection same with _ same
      have same : argument.words ++ (later.words ++ .closing :: rest) =
          argument'.words ++ (later'.words ++ .closing :: more) := by
        simpa using same
      obtain ⟨rfl, tail⟩ := argument.unique argument' same later.stops later'.stops
      obtain ⟨rfl, rfl⟩ := later.unique later' tail
      exact ⟨rfl, rfl⟩
termination_by structural later
end

/-- No words have two derivations. -/
theorem Phrase.eq_of_words {level : Nat} (phrase other : Phrase level) (same : phrase.words = other.words) :
    phrase = other :=
  (phrase.unique other (by rw [same]) stops_nil stops_nil).1

end Formula.Grammar
