import Formula.Value

/-! A computed source of variables. It holds no table: each name that begins with a fixed
word has a value, taken from the name itself. -/

namespace Formula.Host

/-- The number of bytes after `price` in the names that begin with it. -/
def price? (name : String) : Option Value :=
  match name.toList with
  | 'p' :: 'r' :: 'i' :: 'c' :: 'e' :: rest =>
    some (.number (Float.ofNat (String.ofList rest).utf8ByteSize))
  | _ => none

end Formula.Host
