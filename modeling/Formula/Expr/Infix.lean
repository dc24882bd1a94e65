import Formula.Expr.Basic

/-! Operands and operators in the order in which they are read, grouped as they come. One
chain stays open for each precedence; an operator closes the chains that bind tighter and
extends its own, so operators of one precedence form one chain from left to right. -/

namespace Formula

/-- Operands that wait for more, each with the operator after it, the latest first. -/
abbrev Waiting := List (Expr × Operator)

/-- The chain of the waiting operands and a last one, which alone stands for itself. -/
def Waiting.close : Waiting → Expr → Expr
  | [], last => last
  | operand :: operands, last => finish operand operands [(operand.2, last)]
where
  finish (first : Expr × Operator) : Waiting → List (Operator × Expr) → Expr
    | [], terms => .chain first.1 terms
    | operand :: operands, terms => finish operand operands ((operand.2, first.1) :: terms)

structure Infix where
  sum : Waiting := []
  product : Waiting := []
  power : Waiting := []

namespace Infix

def closePower (before : Infix) (last : Expr) : Expr := before.power.close last

def closeProduct (before : Infix) (last : Expr) : Expr := before.product.close (before.closePower last)

def close (before : Infix) (last : Expr) : Expr := before.sum.close (before.closeProduct last)

def push (before : Infix) (operand : Expr) (operator : Operator) : Infix :=
  match operator with
  | .add | .subtract => { sum := (before.closeProduct operand, operator) :: before.sum }
  | .multiply | .divide | .modulo =>
    { before with product := (before.closePower operand, operator) :: before.product, power := [] }
  | .power => { before with power := (operand, operator) :: before.power }

end Infix

end Formula
