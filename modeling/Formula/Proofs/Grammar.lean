import Formula.Reader
import Formula.Token.Lexer

/-! The grammar of formulas, on its own and not as it is read. A derivation is a tree of
the rules that it applies; its words, with blanks between and around them, are the texts
that it derives. Chains of one operand collapse in the tree of the formula. -/

namespace Formula.Grammar

def Digits (chars : List Char) : Prop := chars ≠ [] ∧ ∀ c ∈ chars, c.isDigit = true

/-- `D+ ['.' D*] | '.' D+`, the digits before the point and what stands from the point on. -/
inductive Mantissa : List Char → List Char → Prop where
  | whole {digits} (some : Digits digits) : Mantissa digits []
  | mixed {digits places} (some : Digits digits) (more : ∀ c ∈ places, c.isDigit = true) :
      Mantissa digits ('.' :: places)
  | places {places} (some : Digits places) : Mantissa [] ('.' :: places)

/-- `[[eE] ['+'|'-'] D+]` -/
inductive Power : List Char → Prop where
  | absent : Power []
  | present {mark sign digits} (exponential : mark = 'e' ∨ mark = 'E')
      (signed : sign = [] ∨ sign = ['+'] ∨ sign = ['-']) (some : Digits digits) :
      Power (mark :: sign ++ digits)

structure IsNumber (numeral : Numeral) : Prop where
  mantissa : Mantissa numeral.whole numeral.fraction
  power : Power numeral.power

/-- A string without its quotes, which are of either sort and do not occur in it. -/
structure IsText (quote : Char) (content : List Char) : Prop where
  sort : quote = '"' ∨ quote = '\''
  closed : quote ∉ content

/-- `[A-Za-z_][A-Za-z0-9_]*` -/
inductive IsName : List Char → Prop where
  | mk {first later} (begins : beginsName first = true) (continues : ∀ c ∈ later, continuesName c = true) :
      IsName (first :: later)

inductive Word where
  | number (numeral : Numeral)
  | text (quote : Char) (content : List Char)
  | name (letters : List Char)
  | operator (operator : Operator)
  | relation (relation : Relation)
  | opening
  | closing
  | comma

namespace Word

def chars : Word → List Char
  | .number numeral => numeral.chars
  | .text quote content => quote :: content ++ [quote]
  | .name letters => letters
  | .operator sign => [sign.symbol]
  | .relation sign => sign.symbol
  | .opening => ['(']
  | .closing => [')']
  | .comma => [',']

def token : Word → Token
  | .number numeral => .number (.ofList numeral.chars) numeral.toFloat
  | .text _ content => .text (.ofList content)
  | .name letters => .name (.ofList letters)
  | .operator sign => .operator sign
  | .relation sign => .relation sign
  | .opening => .opening
  | .closing => .closing
  | .comma => .comma

def Valid : Word → Prop
  | .number numeral => IsNumber numeral
  | .text quote content => IsText quote content
  | .name letters => IsName letters
  | _ => True

end Word

abbrev IsTier (level : Nat) : Prop := 1 ≤ level ∧ level ≤ 3

mutual
/-- A derivation from `expr`, `sum`, `product`, `power` or `signed`: the levels 0 to 4. -/
inductive Phrase : Nat → Type where
  | alone (sum : Phrase 1) : Phrase 0
  | compared (left : Phrase 1) (relation : Relation) (right : Phrase 1) : Phrase 0
  | chain {level : Nat} (tier : IsTier level) (head : Phrase (level + 1)) (terms : Terms level) :
      Phrase level
  | signed (sign : Option Operator) (valid : ∀ operator ∈ sign, operator.isSign = true) (atom : Atom) :
      Phrase 4

/-- Operators of one level, each with the operand after it. -/
inductive Terms : Nat → Type where
  | nil {level : Nat} : Terms level
  | cons {level : Nat} (operator : Operator) (tier : operator.precedence = level)
      (operand : Phrase (level + 1)) (terms : Terms level) : Terms level

inductive Atom : Type where
  | number (numeral : Numeral) (valid : IsNumber numeral)
  | text (quote : Char) (content : List Char) (valid : IsText quote content)
  | field (letters : List Char) (valid : IsName letters)
  | call (letters : List Char) (valid : IsName letters) (arguments : Arguments)
  | group (inner : Phrase 0)

inductive Arguments : Type where
  | none
  | some (first : Phrase 0) (later : Later)

inductive Later : Type where
  | nil
  | cons (argument : Phrase 0) (later : Later)
end

def signWords (sign : Option Operator) : List Word := (sign.map Word.operator).toList

mutual
def Phrase.words {level : Nat} : Phrase level → List Word
  | .alone sum => sum.words
  | .compared left relation right => left.words ++ .relation relation :: right.words
  | .chain _ head terms => head.words ++ terms.words
  | .signed sign _ atom => signWords sign ++ atom.words
termination_by structural phrase => phrase

def Terms.words {level : Nat} : Terms level → List Word
  | .nil => []
  | .cons operator _ operand terms => .operator operator :: (operand.words ++ terms.words)
termination_by structural terms => terms

def Atom.words : Atom → List Word
  | .number numeral _ => [.number numeral]
  | .text quote content _ => [.text quote content]
  | .field letters _ => [.name letters]
  | .call letters _ arguments => .name letters :: .opening :: (arguments.words ++ [.closing])
  | .group inner => .opening :: (inner.words ++ [.closing])
termination_by structural atom => atom

def Arguments.words : Arguments → List Word
  | .none => []
  | .some first later => first.words ++ later.words
termination_by structural arguments => arguments

def Later.words : Later → List Word
  | .nil => []
  | .cons argument later => .comma :: (argument.words ++ later.words)
termination_by structural later => later
end

def joined (head : Expr) : List (Operator × Expr) → Expr
  | [] => head
  | term :: terms => .chain head (term :: terms)

theorem joined_of_ne_nil {head : Expr} {terms : List (Operator × Expr)} (some : terms ≠ []) :
    joined head terms = .chain head terms := by
  cases terms with
  | nil => exact absurd rfl some
  | cons term terms => rfl

mutual
def Phrase.expr {level : Nat} : Phrase level → Expr
  | .alone sum => sum.expr
  | .compared left relation right => .comparison left.expr relation right.expr
  | .chain _ head terms => joined head.expr terms.exprs
  | .signed sign _ atom => .signed sign atom.expr
termination_by structural phrase => phrase

def Terms.exprs {level : Nat} : Terms level → List (Operator × Expr)
  | .nil => []
  | .cons operator _ operand terms => (operator, operand.expr) :: terms.exprs
termination_by structural terms => terms

def Atom.expr : Atom → Expr
  | .number numeral _ => .literal (.number numeral.toFloat)
  | .text _ content _ => .literal (.text (.ofList content))
  | .field letters _ => .field (.ofList letters)
  | .call letters _ arguments => .call (.ofList letters) arguments.exprs
  | .group inner => .group inner.expr
termination_by structural atom => atom

def Arguments.exprs : Arguments → List Expr
  | .none => []
  | .some first later => first.expr :: later.exprs
termination_by structural arguments => arguments

def Later.exprs : Later → List Expr
  | .nil => []
  | .cons argument later => argument.expr :: later.exprs
termination_by structural later => later
end

theorem Terms.tier {level : Nat} (terms : Terms level) : ∀ term ∈ terms.exprs, term.1.precedence = level :=
  match terms with
  | .nil => nofun
  | .cons _ same _ terms => List.forall_mem_cons.mpr ⟨same, terms.tier⟩
termination_by structural terms

mutual
/-- How deep the brackets and calls of a derivation nest. -/
def Phrase.nesting {level : Nat} : Phrase level → Nat
  | .alone sum => sum.nesting
  | .compared left _ right => max left.nesting right.nesting
  | .chain _ head terms => max head.nesting terms.nesting
  | .signed _ _ atom => atom.nesting
termination_by structural phrase => phrase

def Terms.nesting {level : Nat} : Terms level → Nat
  | .nil => 0
  | .cons _ _ operand terms => max operand.nesting terms.nesting
termination_by structural terms => terms

def Atom.nesting : Atom → Nat
  | .number .. | .text .. | .field .. => 0
  | .call _ _ arguments => arguments.nesting + 1
  | .group inner => inner.nesting + 1
termination_by structural atom => atom

def Arguments.nesting : Arguments → Nat
  | .none => 0
  | .some first later => max first.nesting later.nesting
termination_by structural arguments => arguments

def Later.nesting : Later → Nat
  | .nil => 0
  | .cons argument later => max argument.nesting later.nesting
termination_by structural later => later
end

/-- Whether every number of some words has a finite nearest double. -/
def Finite (words : List Word) : Prop :=
  ∀ numeral, Word.number numeral ∈ words → numeral.toFloat.isFinite = true

def Blank (chars : List Char) : Prop := ∀ c ∈ chars, isBlank c = true

/-- The texts of some words, with any blanks between and around them. -/
inductive Spaced : List Word → List Char → Prop where
  | nil {blanks} (blank : Blank blanks) : Spaced [] blanks
  | cons {blanks word words text} (blank : Blank blanks) (rest : Spaced words text) :
      Spaced (word :: words) (blanks ++ word.chars ++ text)

end Formula.Grammar
