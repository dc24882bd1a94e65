import Formula.Expr.Infix
import Formula.Token.Basic

/-! Reading a formula from its tokens, one step for each. The levels of brackets still open
form a stack, each with what stood before its bracket; within a level the operands read so
far are grouped as they come. A token that no formula has at its place is refused on the
spot, and the state before it tells what could have stood there. -/

namespace Formula

/-- One level of brackets, or the whole formula, before the place that is read. -/
structure Level where
  compared : Option (Expr × Relation) := none
  operands : Infix := {}

namespace Level

def isEmpty (level : Level) : Bool :=
  level.compared.isNone && level.operands.sum.isEmpty && level.operands.product.isEmpty &&
    level.operands.power.isEmpty

/-- The level with its last operand. -/
def close (level : Level) (last : Expr) : Expr :=
  match level.compared with
  | none => level.operands.close last
  | some (left, relation) => .comparison left relation (level.operands.close last)

end Level

/-- What a bracket was opened for; the arguments before the one being read come latest first. -/
inductive Bracket where
  | group
  | call (name : String) (arguments : List Expr)

/-- A level that waits for the bracket in it, and the sign before that bracket. -/
structure Frame where
  level : Level
  sign : Option Operator
  bracket : Bracket

inductive Place where
  /-- Before an operand, signed or not. -/
  | operand
  /-- Between a sign and its operand. -/
  | signed (sign : Operator)
  /-- After a name, which is a call if a bracket follows. -/
  | name (sign : Option Operator) (name : String)
  /-- After any other operand. -/
  | after (operand : Expr)

structure State where
  frames : List Frame := []
  level : Level := {}
  place : Place := .operand

/-- What can stand at a place that a text does not go on from. -/
inductive Expected where
  | operand
  | unsignedOperand
  /-- An operator, beside it the end of the formula or a comparison where they can stand. -/
  | operator (ending comparing : Bool)
deriving DecidableEq, Repr

/-- A signed operand is that operand added to zero or subtracted from it. -/
def Expr.signed : Option Operator → Expr → Expr
  | none, operand => operand
  | some sign, operand => .chain (.literal (.number 0)) [(sign, operand)]

namespace State

def initial : State := {}

def operand? (state : State) : Option Expr :=
  match state.place with
  | .name sign name => some (.signed sign (.field name))
  | .after operand => some operand
  | _ => none

def enter (state : State) (sign : Option Operator) (bracket : Bracket) : State :=
  { frames := ⟨state.level, sign, bracket⟩ :: state.frames }

/-- Goes on after a bracket, with everything from its sign on as one operand. -/
def leave (frame : Frame) (frames : List Frame) (atom : Expr) : State :=
  { frames, level := frame.level, place := .after (.signed frame.sign atom) }

/-- Ends a call without arguments. -/
def endCall? (state : State) : Option State :=
  match state.frames with
  | frame :: frames =>
    match frame.bracket with
    | .call name [] => if state.level.isEmpty then some (leave frame frames (.call name [])) else none
    | _ => none
  | [] => none

def atom? (state : State) (sign : Option Operator) : Token → Option State
  | .number _ x => some { state with place := .after (.signed sign (.literal (.number x))) }
  | .text content => some { state with place := .after (.signed sign (.literal (.text content))) }
  | .name letters => some { state with place := .name sign letters }
  | .opening => some (state.enter sign .group)
  | _ => none

/-- Ends a bracket whose last part is complete. -/
def close? (state : State) (last : Expr) : Option State :=
  match state.frames with
  | frame :: frames =>
    let inner := state.level.close last
    match frame.bracket with
    | .group => some (leave frame frames (.group inner))
    | .call name arguments => some (leave frame frames (.call name (arguments.reverse ++ [inner])))
  | [] => none

/-- Begins the next argument of a call. -/
def separate? (state : State) (last : Expr) : Option State :=
  match state.frames with
  | frame :: frames =>
    match frame.bracket with
    | .call name arguments =>
      some { frames := { frame with bracket := .call name (state.level.close last :: arguments) } :: frames }
    | .group => none
  | [] => none

def compare? (state : State) (last : Expr) (relation : Relation) : Option State :=
  match state.level.compared with
  | none => some { state with
      level := { compared := some (state.level.operands.close last, relation) }, place := .operand }
  | some _ => none

/-- Goes on after a complete operand. -/
def follow? (state : State) (last : Expr) : Token → Option State
  | .operator operator => some { state with
      level := { state.level with operands := state.level.operands.push last operator }, place := .operand }
  | .relation relation => state.compare? last relation
  | .closing => state.close? last
  | .comma => state.separate? last
  | _ => none

def step? (state : State) (token : Token) : Option State :=
  match state.place with
  | .operand =>
    match token with
    | .operator sign => if sign.isSign then some { state with place := .signed sign } else none
    | .closing => state.endCall?
    | token => state.atom? none token
  | .signed sign => state.atom? (some sign) token
  | .name sign name =>
    match token with
    | .opening => some (state.enter sign (.call name []))
    | token => state.follow? (.signed sign (.field name)) token
  | .after operand => state.follow? operand token

def expected (state : State) : Expected :=
  match state.place with
  | .operand => .operand
  | .signed _ => .unsignedOperand
  | _ => .operator state.frames.isEmpty state.level.compared.isNone

/-- The formula that is read, if the text may end here. -/
def result? (state : State) : Option Expr :=
  match state.frames with
  | [] => state.operand?.map state.level.close
  | _ => none

/-- Reads the tokens in turn, up to the offset and the state at which one is refused. -/
def run (state : State) : List Placed → Except (Nat × Expected) State
  | [] => .ok state
  | word :: words =>
    match state.step? word.token with
    | some next => next.run words
    | none => .error (word.offset, state.expected)

end State

end Formula
