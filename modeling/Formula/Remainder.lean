import Formula.Number

/-! The remainder of two doubles taken as integers. Each side is rounded to the nearest
integer, a half away from zero, and the remainder of the truncated division has the sign
of the dividend, zero included. All of it is exact: the remainder of two integers that are
doubles is a double again. -/

namespace Formula

open Float.Model (UnpackedFloat Format.binary64)
open Float.Model.UnpackedFloat (Sign)

/-- The natural number nearest to `mantissa * 2 ^ exponent`, a half rounded up. -/
def nearestNat (mantissa : Nat) : Int → Nat
  | .ofNat exponent => mantissa * Nat.pow 2 exponent
  | .negSucc exponent => (mantissa + Nat.pow 2 exponent) / Nat.pow 2 (exponent + 1)

/-- The double of the given sign nearest to a natural number. -/
def integral (sign : Sign) : Nat → Float
  | 0 => .ofModel (.pack (.zero sign))
  | n + 1 => .ofModel (.pack (.round Format.binary64 sign (n + 1) 0))

/-- What is left of `dividend` when integer multiples of `divisor` are taken away. -/
def remainderBy (sign : Sign) (dividend : Nat) : UnpackedFloat → Float
  | .infinity _ => integral sign dividend
  | .finite _ mantissa exponent _ =>
    let divisor := nearestNat mantissa exponent
    if divisor = 0 then Number.nan else integral sign (dividend % divisor)
  | _ => Number.nan

def remainder (dividend divisor : Float) : Float :=
  match dividend.toModel.unpack with
  | .zero sign => remainderBy sign 0 divisor.toModel.unpack
  | .finite sign mantissa exponent _ =>
    remainderBy sign (nearestNat mantissa exponent) divisor.toModel.unpack
  | _ => Number.nan

end Formula
