/-! The inverse of the hyperbolic tangent, as half the logarithm of `1 + 2 * x / (1 - x)`. The
quotient is rounded before its logarithm is taken; that has no weight except near minus one,
where the sum all but cancels. -/

namespace Formula

/-- The logarithm of `1 + x`. Where the sum loses digits of `x` its logarithm is scaled by
what was lost. A sum that loses all of them leaves `x` itself, and one that `x` absorbs, at
infinity too, has nothing to scale. -/
def logOnePlus (x : Float) : Float :=
  let sum := 1 + x
  if sum == 1 then x
  else if sum == x then sum.log
  else sum.log * (x / (sum - 1))

def areaTangent (x : Float) : Float := 0.5 * logOnePlus (2 * x / (1 - x))

end Formula
