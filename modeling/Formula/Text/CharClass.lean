/-! Classes of characters, given by ranges of their codes, as Unicode 17 has them. -/

namespace Formula

/-- The first and the last code of each range. -/
abbrev CharClass := List (Nat × Nat)

namespace CharClass

def contains (ranges : CharClass) (c : Char) : Bool :=
  ranges.any fun (first, last) => first ≤ c.toNat && c.toNat ≤ last

end CharClass

end Formula
