import Formula.Text.Extending
import Formula.Text.Invisible
import Formula.Text.Unassigned

/-! Texts between double quotes, for messages. Quotes, backslashes and the usual control
characters are escaped by a backslash, and a character that has no shape of its own is given
by its code. -/

namespace Formula.Quoted

/-- Whether a character cannot be shown by itself. -/
def isShapeless (c : Char) : Bool :=
  invisible.contains c || extending.contains c || unassigned.contains c

def escape : Char → List Char
  | '"' => ['\\', '"']
  | '\\' => ['\\', '\\']
  | '\n' => ['\\', 'n']
  | '\r' => ['\\', 'r']
  | '\t' => ['\\', 't']
  | '\x00' => ['\\', '0']
  | c =>
    if isShapeless c then ['\\', 'u', '\x7b'] ++ Nat.toDigits 16 c.toNat ++ ['\x7d'] else [c]

def text (content : String) : String :=
  .ofList ('"' :: content.toList.flatMap escape ++ ['"'])

end Formula.Quoted
