import Formula.Operator

/-! The trees of formulas. A chain joins a head with further operands from left to right,
whatever the precedences of its operators; a group is a bracket kept in the tree; the
arguments of a call are trees, for the function to evaluate or not. -/

namespace Formula

inductive Expr where
  | literal (value : Value)
  | field (name : String)
  | chain (head : Expr) (terms : List (Operator × Expr))
  | comparison (left : Expr) (relation : Relation) (right : Expr)
  | group (inner : Expr)
  | call (name : String) (arguments : List Expr)

namespace Expr

instance : Inhabited Expr := ⟨.literal .null⟩

mutual
/-- The number of nodes on the longest path to a leaf. -/
def depth : Expr → Nat
  | .literal _ | .field _ => 1
  | .chain head terms => max head.depth (termsDepth terms) + 1
  | .comparison left _ right => max left.depth right.depth + 1
  | .group inner => inner.depth + 1
  | .call _ arguments => argumentsDepth arguments + 1
termination_by structural expr => expr

def termsDepth : List (Operator × Expr) → Nat
  | [] => 0
  | (_, operand) :: terms => max operand.depth (termsDepth terms)
termination_by structural terms => terms

def argumentsDepth : List Expr → Nat
  | [] => 0
  | argument :: arguments => max argument.depth (argumentsDepth arguments)
termination_by structural arguments => arguments
end

mutual
/-- Equality of shape, with literals compared as formulas see them. -/
def same : Expr → Expr → Bool
  | .literal x, .literal y => x.same y
  | .field x, .field y => x == y
  | .chain x xs, .chain y ys => x.same y && sameTerms xs ys
  | .comparison x r x', .comparison y s y' => x.same y && r == s && x'.same y'
  | .group x, .group y => x.same y
  | .call x xs, .call y ys => x == y && sameArguments xs ys
  | _, _ => false
termination_by structural expr => expr

def sameTerms : List (Operator × Expr) → List (Operator × Expr) → Bool
  | [], [] => true
  | (o, x) :: xs, (p, y) :: ys => o == p && x.same y && sameTerms xs ys
  | _, _ => false
termination_by structural terms => terms

def sameArguments : List Expr → List Expr → Bool
  | [], [] => true
  | x :: xs, y :: ys => x.same y && sameArguments xs ys
  | _, _ => false
termination_by structural arguments => arguments
end

end Expr

end Formula
