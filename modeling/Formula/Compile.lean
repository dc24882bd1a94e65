import Formula.CompileError
import Formula.Expr.Printer
import Formula.Text.Nesting
import Formula.Token.Lexer

/-! From a text to its formula. A text is refused for its nesting before anything else, then
for its first word that no formula has there, and only a text that reads to its end is
refused for the first of its numbers that is too large. -/

namespace Formula

/-- The formula of a whole text, or the offset of the word that it fails at. -/
def parse (text : List Char) : Except (Nat × Expected) Expr := do
  let words := Words.ofText text
  let state ← State.initial.run words.tokens
  match state.result? with
  | some expr => if words.stop = text.length then return expr else throw (words.stop, state.expected)
  | none => throw (words.stop, state.expected)

/-- The first number of a text that is not finite. -/
def firstOutOfRange? (text : List Char) : Option (Nat × String) :=
  (Words.ofText text).tokens.findSome? fun word =>
    match word.token with
    | .number numeral x => if x.isFinite then none else some (word.offset, numeral)
    | _ => none

/-- The formula of a text whose brackets and calls nest at most `limit` deep. -/
def compileChars (limit : Nat) (text : List Char) : Except CompileError Expr :=
  match tooDeep? limit text with
  | some offset => .error ⟨.tooDeep limit, .ofOffset text offset⟩
  | none =>
    match parse text with
    | .error (offset, expected) => .error ⟨.unexpected expected, .ofOffset text offset⟩
    | .ok expr =>
      match firstOutOfRange? text with
      | some (offset, numeral) => .error ⟨.outOfRange numeral, .ofOffset text offset⟩
      | none => .ok expr

def compile (limit : Nat) (text : String) : Except CompileError Expr := compileChars limit text.toList

def defaultLimit : Nat := 128

/-- Whether the text of a formula compiles to an equal formula again. -/
def Expr.roundTrips (expr : Expr) : Bool :=
  match compile defaultLimit expr.text with
  | .ok again => again.same expr
  | .error _ => false

end Formula
