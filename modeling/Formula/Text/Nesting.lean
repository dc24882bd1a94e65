/-! The bracket guard. It looks at characters only: a quote of either sort opens a string
that the next quote of the same sort closes, brackets inside strings do not count, and a
closing bracket without an opening one is passed over. -/

namespace Formula

/-- The offset of the first bracket that opens a level beyond the limit, where `depth`
levels are open before the text and a string is open if `quote` is there. -/
def tooDeepFrom? (limit : Nat) : (offset depth : Nat) → (quote : Option Char) → List Char → Option Nat
  | _, _, _, [] => none
  | offset, depth, some quote, c :: rest =>
    tooDeepFrom? limit (offset + 1) depth (if c = quote then none else some quote) rest
  | offset, depth, none, c :: rest =>
    if c = '"' ∨ c = '\'' then tooDeepFrom? limit (offset + 1) depth (some c) rest
    else if c = '(' then
      if depth < limit then tooDeepFrom? limit (offset + 1) (depth + 1) none rest else some offset
    else if c = ')' then tooDeepFrom? limit (offset + 1) (depth - 1) none rest
    else tooDeepFrom? limit (offset + 1) depth none rest

def tooDeep? (limit : Nat) (text : List Char) : Option Nat := tooDeepFrom? limit 0 0 none text

end Formula
