/-! Places in a text for readers of messages: lines and columns count from one, a line feed
ends a line, and every other character is one column. -/

namespace Formula

structure Position where
  line : Nat
  column : Nat
deriving DecidableEq, Repr

namespace Position

def start : Position := ⟨1, 1⟩

def advance (position : Position) (c : Char) : Position :=
  if c = '\n' then ⟨position.line + 1, 1⟩ else ⟨position.line, position.column + 1⟩

/-- The place of the character at an offset. -/
def ofOffset (text : List Char) (offset : Nat) : Position := (text.take offset).foldl advance start

end Position

end Formula
