import Formula.Proofs.Acceptance

/-! Texts of derivations, put together from the texts of their parts. Each way in which the
printer joins texts is a rule of the grammar, so what it writes is derived piece by piece;
a phrase of one level is one of every level below. -/

namespace Formula.Grammar

theorem Spaced.blanks {blanks text : List Char} {words : List Word} (blank : Blank blanks) (spaced : Spaced words text) :
    Spaced words (blanks ++ text) := by
  induction blanks with
  | nil => exact spaced
  | cons c blanks ih =>
    obtain ⟨first, later⟩ := List.forall_mem_cons.mp blank
    exact (ih later).blank first

theorem Spaced.append {words more : List Word} {text rest : List Char} (first : Spaced words text)
    (second : Spaced more rest) : Spaced (words ++ more) (text ++ rest) := by
  induction first with
  | nil blank => exact second.blanks blank
  | @cons blanks word words text blank _ ih =>
    rw [List.append_assoc]
    exact .cons blank ih

theorem spaced_word (word : Word) : Spaced [word] word.chars := by
  have alone : Spaced [word] ([] ++ word.chars ++ []) := .cons nofun (.nil nofun)
  rwa [List.nil_append, List.append_nil] at alone

theorem spaced_between (word : Word) : Spaced [word] (' ' :: word.chars ++ [' ']) := by
  have blank : Blank [' '] := by
    intro c member
    obtain rfl := List.mem_singleton.mp member
    rfl
  exact .cons blank (.nil blank)

theorem finite_append {words more : List Word} (first : Finite words) (second : Finite more) : Finite (words ++ more) := by
  intro numeral member
  rcases List.mem_append.mp member with member | member
  · exact first numeral member
  · exact second numeral member

theorem Finite.parts {words more : List Word} (finite : Finite (words ++ more)) : Finite words ∧ Finite more := by
  constructor
  · intro numeral member
    exact finite numeral (List.mem_append_left more member)
  · intro numeral member
    exact finite numeral (List.mem_append_right words member)

theorem Finite.tail {word : Word} {words : List Word} (finite : Finite (word :: words)) : Finite words := by
  intro numeral member
  exact finite numeral (List.mem_cons_of_mem word member)

theorem finite_word (word : Word) (other : ∀ numeral, word ≠ .number numeral) : Finite [word] := by
  intro numeral member
  exact absurd (List.mem_singleton.mp member).symm (other numeral)

/-- Some derivation from a level has this text and this formula, with finite numbers only. -/
def Written (level : Nat) (text : List Char) (expr : Expr) : Prop :=
  ∃ phrase : Phrase level, Spaced phrase.words text ∧ Finite phrase.words ∧ phrase.expr = expr

def WrittenAtom (text : List Char) (expr : Expr) : Prop :=
  ∃ atom : Atom, Spaced atom.words text ∧ Finite atom.words ∧ atom.expr = expr

def WrittenArguments (text : List Char) (exprs : List Expr) : Prop :=
  ∃ arguments : Arguments, Spaced arguments.words text ∧ Finite arguments.words ∧ arguments.exprs = exprs

def WrittenLater (text : List Char) (exprs : List Expr) : Prop :=
  ∃ later : Later, Spaced later.words text ∧ Finite later.words ∧ later.exprs = exprs

/-- The text of a chain whose operators all have one precedence. -/
def WrittenChain (level : Nat) (text : List Char) (head : Expr) (terms : List (Operator × Expr)) : Prop :=
  ∃ (first : Phrase (level + 1)) (later : Terms level), Spaced (first.words ++ later.words) text ∧
    Finite (first.words ++ later.words) ∧ first.expr = head ∧ later.exprs = terms

variable {level : Nat} {text : List Char} {expr : Expr}

theorem Written.operand (written : Written (level + 1) text expr) :
    WrittenChain level text expr [] := by
  obtain ⟨phrase, spaced, finite, rfl⟩ := written
  refine ⟨phrase, .nil, ?_, ?_, rfl, rfl⟩
  · rwa [Terms.words, List.append_nil]
  · rwa [Terms.words, List.append_nil]

theorem WrittenChain.written {head : Expr} {terms : List (Operator × Expr)}
    (written : WrittenChain level text head terms) (tier : IsTier level) : Written level text (joined head terms) := by
  obtain ⟨first, later, spaced, finite, rfl, rfl⟩ := written
  exact ⟨.chain tier first later, spaced, finite, rfl⟩

theorem Written.chain (written : Written level text expr) (tier : IsTier level) :
    ∃ head terms, expr = joined head terms ∧ WrittenChain level text head terms := by
  obtain ⟨phrase, spaced, finite, rfl⟩ := written
  match level, phrase, tier with
  | _, .chain _ head terms, _ => exact ⟨head.expr, terms.exprs, rfl, head, terms, spaced, finite, rfl, rfl⟩

theorem Phrase.level_le (phrase : Phrase level) : level ≤ 4 := by
  cases phrase with
  | alone | compared => exact Nat.zero_le 4
  | chain tier => exact Nat.le_succ_of_le tier.2
  | signed => exact Nat.le_refl 4

/-- What is written at a level is written at every lower one. -/
theorem Written.down {least : Nat} (written : Written level text expr) (below : least ≤ level) :
    Written least text expr := by
  have most : level ≤ 4 := by
    obtain ⟨phrase, -⟩ := written
    exact phrase.level_le
  induction level with
  | zero =>
    obtain rfl := Nat.le_zero.mp below
    exact written
  | succ level ih =>
    rcases Nat.eq_or_lt_of_le below with rfl | below
    · exact written
    · refine ih ?_ (Nat.le_of_lt_succ below) (Nat.le_of_succ_le most)
      cases level with
      | zero =>
        obtain ⟨phrase, spaced, finite, rfl⟩ := written
        exact ⟨.alone phrase, spaced, finite, rfl⟩
      | succ level =>
        have tier : IsTier (level + 1) := ⟨Nat.succ_le_succ (Nat.zero_le level), Nat.le_of_succ_le_succ most⟩
        exact written.operand.written tier

theorem Written.outer (written : Written level text expr) : Written 0 text expr := written.down (Nat.zero_le level)

def Terms.snoc (operator : Operator) (tier : operator.precedence = level) (operand : Phrase (level + 1)) :
    Terms level → Terms level
  | .nil => .cons operator tier operand .nil
  | .cons first same inner terms => .cons first same inner (terms.snoc operator tier operand)

theorem Terms.words_snoc (operator : Operator) (tier : operator.precedence = level) (operand : Phrase (level + 1))
    (terms : Terms level) :
    (terms.snoc operator tier operand).words = terms.words ++ .operator operator :: operand.words := by
  fun_induction Terms.snoc operator tier operand terms with
  | case1 => simp only [words, List.append_nil, List.nil_append]
  | case2 operand first same inner terms ih => simp only [words, ih, List.cons_append, List.append_assoc]

theorem Terms.exprs_snoc (operator : Operator) (tier : operator.precedence = level) (operand : Phrase (level + 1))
    (terms : Terms level) : (terms.snoc operator tier operand).exprs = terms.exprs ++ [(operator, operand.expr)] := by
  fun_induction Terms.snoc operator tier operand terms with
  | case1 => rfl
  | case2 operand first same inner terms ih => simp only [exprs, ih, List.cons_append]

theorem WrittenChain.snoc {head : Expr} {terms : List (Operator × Expr)} (written : WrittenChain level text head terms)
    {operator : Operator} (tier : operator.precedence = level) {operand : List Char}
    (last : Written (level + 1) operand expr) :
    WrittenChain level (text ++ ' ' :: operator.symbol :: ' ' :: operand) head (terms ++ [(operator, expr)]) := by
  obtain ⟨first, later, spaced, finite, rfl, rfl⟩ := written
  obtain ⟨phrase, spaced', finite', rfl⟩ := last
  have words : first.words ++ (later.snoc operator tier phrase).words =
      first.words ++ later.words ++ ([.operator operator] ++ phrase.words) := by
    rw [later.words_snoc, List.append_assoc]
    rfl
  refine ⟨first, later.snoc operator tier phrase, ?_, ?_, rfl, later.exprs_snoc operator tier phrase⟩
  · rw [words]
    exact spaced.append ((spaced_between (.operator operator)).append spaced')
  · rw [words]
    exact finite_append finite (finite_append (finite_word (.operator operator) nofun) finite')

theorem WrittenAtom.written (written : WrittenAtom text expr) : Written 4 text expr := by
  obtain ⟨atom, spaced, finite, rfl⟩ := written
  exact ⟨.signed none nofun atom, spaced, finite, rfl⟩

theorem WrittenAtom.signed (written : WrittenAtom text expr) {sign : Operator} (isSign : sign.isSign = true) :
    Written 4 (sign.symbol :: text) (.chain (.literal (.number 0)) [(sign, expr)]) := by
  obtain ⟨atom, spaced, finite, rfl⟩ := written
  refine ⟨.signed (some sign) (fun operator same => Option.some.inj same ▸ isSign) atom, ?_, ?_, rfl⟩
  · exact (spaced_word (.operator sign)).append spaced
  · exact finite_append (finite_word (.operator sign) nofun) finite

theorem writtenAtom_number {numeral : Numeral} (valid : IsNumber numeral) (finite : numeral.toFloat.isFinite = true) :
    WrittenAtom numeral.chars (.literal (.number numeral.toFloat)) := by
  refine ⟨.number numeral valid, spaced_word (.number numeral), ?_, rfl⟩
  intro other member
  cases List.mem_singleton.mp member
  exact finite

theorem writtenAtom_text {quote : Char} {content : List Char} (valid : IsText quote content) :
    WrittenAtom (quote :: content ++ [quote]) (.literal (.text (.ofList content))) :=
  ⟨.text quote content valid, spaced_word (.text quote content), finite_word _ nofun, rfl⟩

theorem exists_isText {content : List Char} (quotable : ¬ ('"' ∈ content ∧ '\'' ∈ content)) :
    ∃ quote, IsText quote content := by
  by_cases double : '"' ∈ content
  · exact ⟨'\'', .inr rfl, fun single => quotable ⟨double, single⟩⟩
  · exact ⟨'"', .inl rfl, double⟩

theorem writtenAtom_field {letters : List Char} (valid : IsName letters) : WrittenAtom letters (.field (.ofList letters)) :=
  ⟨.field letters valid, spaced_word (.name letters), finite_word _ nofun, rfl⟩

theorem Written.group (written : Written 0 text expr) : WrittenAtom ('(' :: text ++ [')']) (.group expr) := by
  obtain ⟨phrase, spaced, finite, rfl⟩ := written
  refine ⟨.group phrase, ?_, ?_, rfl⟩
  · exact (spaced_word .opening).append (spaced.append (spaced_word .closing))
  · exact finite_append (finite_word .opening nofun) (finite_append finite (finite_word .closing nofun))

theorem WrittenArguments.call {exprs : List Expr} (written : WrittenArguments text exprs) {letters : List Char}
    (valid : IsName letters) : WrittenAtom (letters ++ '(' :: text ++ [')']) (.call (.ofList letters) exprs) := by
  obtain ⟨arguments, spaced, finite, rfl⟩ := written
  refine ⟨.call letters valid arguments, ?_, ?_, rfl⟩
  · rw [List.append_assoc]
    exact (spaced_word (.name letters)).append
      ((spaced_word .opening).append (spaced.append (spaced_word .closing)))
  · exact finite_append (finite_word (.name letters) nofun)
      (finite_append (finite_word .opening nofun) (finite_append finite (finite_word .closing nofun)))

theorem writtenArguments_nil : WrittenArguments [] [] := ⟨.none, .nil nofun, nofun, rfl⟩

theorem WrittenLater.arguments {exprs : List Expr} {rest : List Char} (written : WrittenLater rest exprs)
    (first : Written 0 text expr) : WrittenArguments (text ++ rest) (expr :: exprs) := by
  obtain ⟨phrase, spaced, finite, rfl⟩ := first
  obtain ⟨later, spaced', finite', rfl⟩ := written
  exact ⟨.some phrase later, spaced.append spaced', finite_append finite finite', rfl⟩

theorem writtenLater_nil : WrittenLater [] [] := ⟨.nil, .nil nofun, nofun, rfl⟩

theorem WrittenLater.cons {exprs : List Expr} {rest : List Char} (written : WrittenLater rest exprs)
    (argument : Written 0 text expr) : WrittenLater (',' :: ' ' :: text ++ rest) (expr :: exprs) := by
  obtain ⟨phrase, spaced, finite, rfl⟩ := argument
  obtain ⟨later, spaced', finite', rfl⟩ := written
  refine ⟨.cons phrase later, ?_, ?_, rfl⟩
  · exact (spaced_word .comma).append ((spaced.blank rfl).append spaced')
  · exact finite_append (finite_word .comma nofun) (finite_append finite finite')

theorem Written.compared {left right : List Char} {expr' : Expr} (first : Written 1 left expr)
    (second : Written 1 right expr') (relation : Relation) :
    Written 0 (left ++ ' ' :: relation.symbol ++ ' ' :: right) (.comparison expr relation expr') := by
  obtain ⟨phrase, spaced, finite, rfl⟩ := first
  obtain ⟨other, spaced', finite', rfl⟩ := second
  refine ⟨.compared phrase relation other, ?_, ?_, rfl⟩
  · have texts : left ++ ' ' :: relation.symbol ++ ' ' :: right =
        left ++ ((' ' :: relation.symbol ++ [' ']) ++ right) := by simp
    rw [texts]
    exact spaced.append ((spaced_between (.relation relation)).append spaced')
  · exact finite_append finite (finite_append (finite_word (.relation relation) nofun) finite')

end Formula.Grammar
