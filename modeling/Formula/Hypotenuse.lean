import Formula.Number

/-! The hypotenuse of a right triangle. The sum of the squares is formed exactly, so that
only its square root is rounded and nothing overflows on the way. -/

namespace Formula

open Float.Model (UnpackedFloat Format.binary64)

/-- The double nearest to the square root of `mantissa * 2 ^ exponent`. -/
def nearestRoot (mantissa : Nat) (exponent : Int) : Float :=
  if positive : 0 < mantissa then
    .ofModel (.pack (.sqrt Format.binary64 (.finite .positive mantissa exponent positive)))
  else 0

/-- Infinite if either side is, even beside NaN. -/
def hypotenuse (a b : Float) : Float :=
  match a.toModel.unpack, b.toModel.unpack with
  | .infinity _, _ | _, .infinity _ => Number.infinity .positive
  | .notANumber, _ | _, .notANumber => Number.nan
  | .zero _, _ => b.abs
  | _, .zero _ => a.abs
  | .finite _ m e _, .finite _ n f _ =>
    let least := min e f
    let width := m * Nat.pow 2 (e - least).toNat
    let height := n * Nat.pow 2 (f - least).toNat
    nearestRoot (width * width + height * height) (2 * least)

end Formula
