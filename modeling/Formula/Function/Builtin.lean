import Formula.AreaTangent
import Formula.Function.Basic

/-! The functions that come with the language, in four groups. All but the conditional are
functions of doubles. -/

namespace Formula

abbrev Table := List (String × Function)

namespace Table

def find? (table : Table) (name : String) : Option Function := table.lookup name

/-- Declared functions, each under its own name. -/
def ofDeclared (functions : List Declared) : Table :=
  functions.map fun function => (function.name, .declared function)

end Table

namespace Declared

/-- A function of one number. -/
def unary (name : String) (f : Float → Float) : Declared :=
  ⟨name, [.number], [], fun x => .ok (.number (f x))⟩

/-- The angle of the point with the coordinates `x` and `y`. -/
def angle : Declared :=
  ⟨"atan2", [.number, .number], [], fun y x => .ok (.number (y.atan2 x))⟩

/-- The square root, or the root of a given degree as the power to its inverse. -/
def root : Declared :=
  ⟨"sqrt", [.number], [.number], fun x degree =>
    match degree with
    | some degree => .ok (.number (x.pow (1 / degree)))
    | none => .ok (.number x.sqrt)⟩

end Declared

inductive Group where
  | trigonometric
  | hyperbolic
  | exponential
  | conditional
deriving DecidableEq, Repr

namespace Group

def table : Group → Table
  | trigonometric => .ofDeclared [.unary "cos" Float.cos, .unary "acos" Float.acos,
      .unary "sin" Float.sin, .unary "asin" Float.asin, .unary "tan" Float.tan,
      .unary "atan" Float.atan, .angle]
  | hyperbolic => .ofDeclared [.unary "cosh" Float.cosh, .unary "acosh" Float.acosh,
      .unary "sinh" Float.sinh, .unary "asinh" Float.asinh, .unary "atanh" areaTangent]
  | exponential => .ofDeclared [.unary "log" Float.log, .root]
  | conditional => [("if", .conditional)]

end Group

/-- The functions of doubles alone. -/
def mathTable : Table :=
  Group.trigonometric.table ++ Group.hyperbolic.table ++ Group.exponential.table

end Formula
