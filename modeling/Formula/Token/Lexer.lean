import Formula.Numeral
import Formula.Token.Basic

/-! Reading the words of a text. Each token is the longest that begins at its place, and
blanks may stand between any two. The first place where no token begins ends the reading;
that is the end of the text unless something there is malformed. -/

namespace Formula

def isBlank (c : Char) : Bool := c == ' ' || c == '\t' || c == '\r' || c == '\n'

def beginsName (c : Char) : Bool := c.isAlpha || c == '_'

def continuesName (c : Char) : Bool := c.isAlphanum || c == '_'

namespace Token

/-- A string up to the closing quote; it ends in no other way. -/
def quoted? (quote : Char) (text : List Char) : Option (Token × Nat) :=
  let content := text.takeWhile (· != quote)
  match text.drop content.length with
  | [] => none
  | _ :: _ => some (.text (.ofList content), content.length + 2)

def number? (text : List Char) : Option (Token × Nat) :=
  (Numeral.ofText? text).map fun numeral =>
    (.number (.ofList numeral.chars) numeral.toFloat, numeral.chars.length)

def word? (text : List Char) : Option (Token × Nat) :=
  let letters := text.takeWhile continuesName
  if text.head?.any beginsName then some (.name (.ofList letters), letters.length) else none

/-- The token that a text begins with, and the number of its characters. -/
def first? (text : List Char) : Option (Token × Nat) :=
  match text with
  | '<' :: '=' :: _ => some (.relation .atMost, 2)
  | '>' :: '=' :: _ => some (.relation .atLeast, 2)
  | '=' :: '=' :: _ => some (.relation .equal, 2)
  | '!' :: '=' :: _ => some (.relation .unequal, 2)
  | '<' :: _ => some (.relation .less, 1)
  | '>' :: _ => some (.relation .greater, 1)
  | '(' :: _ => some (.opening, 1)
  | ')' :: _ => some (.closing, 1)
  | ',' :: _ => some (.comma, 1)
  | '"' :: rest => quoted? '"' rest
  | '\'' :: rest => quoted? '\'' rest
  | c :: _ =>
    match Operator.ofChar? c with
    | some sign => some (.operator sign, 1)
    | none => (number? text).or (word? text)
  | [] => none

end Token

/-- The tokens of a text up to the offset `stop`, where no further one begins. -/
structure Words where
  tokens : List Placed
  stop : Nat
deriving DecidableEq

/-- Reads on at an offset, where `skipped` characters still belong to the last token. -/
def Words.read : (offset skipped : Nat) → List Char → Words
  | offset, _, [] => ⟨[], offset⟩
  | offset, skipped + 1, _ :: rest => read (offset + 1) skipped rest
  | offset, 0, c :: rest =>
    if isBlank c then read (offset + 1) 0 rest
    else
      match Token.first? (c :: rest) with
      | some (token, width) =>
        let words := read (offset + 1) (width - 1) rest
        { words with tokens := ⟨offset, token⟩ :: words.tokens }
      | none => ⟨[], offset⟩

def Words.ofText (text : List Char) : Words := read 0 0 text

end Formula
