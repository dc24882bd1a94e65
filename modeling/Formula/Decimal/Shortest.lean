import Formula.Decimal.Basic

/-! The shortest decimal of a double: with the fewest digits of all that read back as the
same double, and of those the nearest to its value. Candidates are the two neighbours of
the value on each decimal grid, coarsest grid first, and a candidate is taken when it
reads back. -/

namespace Formula

open Float.Model (UnpackedFloat)

/-- A fraction equal to `mantissa * 2 ^ exponent`: numerator and denominator. -/
def dyadic (mantissa : Nat) (exponent : Int) : Nat × Nat :=
  (mantissa * Nat.pow 2 exponent.toNat, Nat.pow 2 (-exponent).toNat)

namespace Decimal

private def length : Nat → Nat
  | 0 => 0
  | n + 1 => (Nat.toDigits 10 (n + 1)).length

/-- The place `p` of the leading digit of a positive fraction, that is
`10 ^ (p - 1) ≤ numerator / denominator < 10 ^ p`. -/
def leading (numerator denominator : Nat) : Int :=
  if denominator ≤ numerator then length (numerator / denominator)
  else 1 - length ((denominator - 1) / numerator)

/-- The multiples of `10 ^ exponent` on both sides of a fraction, the nearer one first and
of two equally near ones the upper. -/
def neighbours (numerator denominator : Nat) (exponent : Int) : List Decimal :=
  let numerator := numerator * Nat.pow 10 (-exponent).toNat
  let denominator := denominator * Nat.pow 10 exponent.toNat
  let below := ofScaled (numerator / denominator) exponent
  let above := ofScaled (numerator / denominator + 1) exponent
  if 2 * (numerator % denominator) < denominator then [below, above] else [above, below]

/-- All digits of `mantissa * 2 ^ exponent`. -/
def exact (mantissa : Nat) : Int → Decimal
  | .ofNat exponent => ⟨mantissa * Nat.pow 2 exponent, 0⟩
  | .negSucc exponent => ⟨mantissa * Nat.pow 5 (exponent + 1), exponent + 1⟩

/-- Seventeen digits are enough for every double. -/
def mostDigits : Nat := 17

/-- The shortest decimal of a nonnegative finite double. -/
def shortest (x : Float) : Decimal :=
  match x.toModel.unpack with
  | .finite _ mantissa exponent _ =>
    let (numerator, denominator) := dyadic mantissa exponent
    let place := leading numerator denominator
    let found := (List.range (mostDigits + 1)).findSome? fun (count : Nat) =>
      (neighbours numerator denominator (place - count)).find? fun candidate => candidate.toFloat = x
    found.getD (exact mantissa exponent)
  | _ => ⟨0, 0⟩

end Decimal

end Formula
