import Formula.Expr.Basic

/-! The text of a formula. Brackets stand wherever reading the text would otherwise regroup
it: around an operand that binds no tighter than its operator, and around a chain so far
that binds looser than its next operator. A chain `0 + x` or `0 - x` is written as the
signed operand that it is read from. -/

namespace Formula.Expr

/-- Chains and comparisons, whose parts stand side by side. -/
def isCompound : Expr → Bool
  | .chain .. | .comparison .. => true
  | _ => false

def isComparison : Expr → Bool
  | .comparison .. => true
  | _ => false

/-- Whether a chain with this head and these terms is a signed operand. -/
def isSigned : Expr → List (Operator × Expr) → Bool
  | .literal (.number x), [(sign, operand)] => x == 0 && sign.isSign && !operand.isCompound
  | _, _ => false

/-- The precedence of everything that is neither a chain nor a comparison. -/
def atomBinding : Nat := 4

/-- How tightly the text of a formula holds together: the precedence of its loosest
operator, below all of them for comparisons. -/
def binding : Expr → Nat
  | .chain head terms =>
    if isSigned head terms then atomBinding
    else terms.foldl (fun loosest term => min loosest term.1.precedence) head.binding
  | .comparison .. => 0
  | _ => atomBinding

/-- How many times a chain so far is bracketed before its next operator. -/
def opened : Nat → List (Operator × Expr) → Nat
  | _, [] => 0
  | binding, (operator, _) :: terms =>
    (if binding < operator.precedence then 1 else 0) + opened operator.precedence terms

/-- A text with a double quote in it stands in single ones. -/
def literalChars : Value → List Char
  | .text content =>
    let quote := if content.toList.contains '"' then '\'' else '"'
    quote :: content.toList ++ [quote]
  | value => value.display.toList

def bracketed (brackets : Bool) (chars : List Char) : List Char :=
  if brackets then '(' :: chars ++ [')'] else chars

mutual
def chars : Expr → List Char
  | .literal value => literalChars value
  | .field name => name.toList
  | .chain head terms =>
    if isSigned head terms then signedChars terms
    else List.replicate (opened head.binding terms) '(' ++ head.chars ++ termsChars head.binding terms
  | .comparison left relation right =>
    bracketed left.isComparison left.chars ++ ' ' :: relation.symbol ++ ' ' ::
      bracketed right.isComparison right.chars
  | .group inner => '(' :: inner.chars ++ [')']
  | .call name arguments => name.toList ++ '(' :: argumentsChars arguments ++ [')']
termination_by structural expr => expr

def signedChars : List (Operator × Expr) → List Char
  | [] => []
  | (sign, operand) :: terms => sign.symbol :: operand.chars ++ signedChars terms
termination_by structural terms => terms

/-- The terms after a chain so far of the given binding, with the brackets that close it. -/
def termsChars : Nat → List (Operator × Expr) → List Char
  | _, [] => []
  | binding, (operator, operand) :: terms =>
    (if binding < operator.precedence then [')'] else []) ++
      ' ' :: operator.symbol :: ' ' ::
        bracketed (operand.binding ≤ operator.precedence) operand.chars ++
      termsChars operator.precedence terms
termination_by structural _ terms => terms

def argumentsChars : List Expr → List Char
  | [] => []
  | argument :: arguments => argument.chars ++ laterChars arguments
termination_by structural arguments => arguments

def laterChars : List Expr → List Char
  | [] => []
  | argument :: arguments => ',' :: ' ' :: argument.chars ++ laterChars arguments
termination_by structural arguments => arguments
end

def text (expr : Expr) : String := .ofList expr.chars

end Formula.Expr
