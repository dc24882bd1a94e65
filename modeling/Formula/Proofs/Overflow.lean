import Formula.Proofs.Plain

/-! The numerals whose nearest double is infinite. The largest double is one step below
`2 ^ 1024`, and half of this step below `2 ^ 1024` rounding goes up: a tie is to even, and the
last digit of the largest mantissa is odd. This bound is a multiple of all the powers of two that
mantissas count in before they are rounded, so whatever is cut off of a product or quotient
does not matter for it. -/

namespace Formula.Doubles

open Float.Model (Format UnpackedFloat totalExponent)
open Float.Model.UnpackedFloat

/-- The bound `2 ^ 1024 - 2 ^ 970`, counted in steps of `2 ^ (970 - steps)`. -/
@[irreducible]
def overflowBound (steps : Nat) : Nat := (2 ^ 54 - 1) * 2 ^ steps

theorem overflowBound_pos (steps : Nat) : 0 < overflowBound steps := by
  rw [overflowBound]
  exact Nat.mul_pos (by decide) (Nat.two_pow_pos steps)

theorem overflowBound_lt (steps : Nat) : overflowBound steps < 2 ^ (54 + steps) := by
  rw [overflowBound, Nat.pow_add]
  exact Nat.mul_lt_mul_of_pos_right (by decide) (Nat.two_pow_pos steps)

theorem lt_overflowBound_iff {mantissa steps : Nat} :
    mantissa < overflowBound steps ↔ mantissa / 2 ^ steps < 2 ^ 54 - 1 := by
  rw [overflowBound, Nat.div_lt_iff_lt_mul (Nat.two_pow_pos steps)]

private theorem le_overflowBound (steps : Nat) : 2 ^ (53 + steps) ≤ overflowBound steps := by
  rw [overflowBound, Nat.pow_add]
  exact Nat.mul_le_mul_right _ (by decide)

theorem overflowBound_add (steps finer : Nat) : overflowBound (steps + finer) = overflowBound steps * 2 ^ finer := by
  rw [overflowBound, Nat.pow_add, ← Nat.mul_assoc, overflowBound]

private theorem shiftRight_succ (extended : ExtendedMantissa) (shift : Nat) :
    extended >>> (shift + 1) = (extended >>> shift).shiftRightOne := rfl

theorem mantissa_shiftRight (extended : ExtendedMantissa) (shift : Nat) :
    (extended >>> shift).mantissa = extended.mantissa / 2 ^ shift := by
  induction shift with
  | zero => exact (Nat.div_one _).symm
  | succ shift ih => rw [shiftRight_succ, ExtendedMantissa.shiftRightOne, ih, Nat.div_div_eq_div_mul, Nat.pow_succ]

private theorem mantissa_ofAccuracy (mantissa : Nat) (accuracy : Accuracy) :
    (ExtendedMantissa.ofMantissaAndAccuracy mantissa accuracy).mantissa = mantissa := by
  cases accuracy with
  | exact => rfl
  | inexact order => cases order <;> rfl

/-- Rounding leaves a mantissa or goes up to the next one. If the mantissa is odd, the first
digit that is cut off tells which. -/
private theorem roundedMantissa_cases (extended : ExtendedMantissa) :
    (extended.roundedMantissa = extended.mantissa ∧ (extended.roundBit = true → extended.mantissa % 2 = 0)) ∨
      (extended.roundedMantissa = extended.mantissa + 1 ∧ extended.roundBit = true) := by
  obtain ⟨mantissa, roundBit, stickyBit⟩ := extended
  cases roundBit with
  | false => cases stickyBit <;> exact .inl ⟨rfl, nofun⟩
  | true =>
    cases stickyBit with
    | false =>
      have rounded : (ExtendedMantissa.mk mantissa true false).roundedMantissa = mantissa + mantissa % 2 := rfl
      rw [rounded]
      rcases Nat.mod_two_eq_zero_or_one mantissa with even | odd
      · exact .inl ⟨congrArg (mantissa + ·) even, fun _ => even⟩
      · exact .inr ⟨congrArg (mantissa + ·) odd, rfl⟩
    | true => exact .inr ⟨rfl, rfl⟩

/-- The exponent that a mantissa is moved to, where it has 53 digits or counts the least steps. -/
def fitting (mantissa : Nat) (exponent : Int) : Int := max exponent (max (mantissa.log2 + exponent - 52) (-1074))

private theorem shiftToTargetExponent_eq (mantissa : Nat) (exponent : Int) (accuracy : Accuracy) :
    shiftToTargetExponent Format.binary64 mantissa exponent accuracy =
      (ExtendedMantissa.ofMantissaAndAccuracy mantissa accuracy >>> (fitting mantissa exponent - exponent).toNat,
        fitting mantissa exponent) := by
  have target : Format.binary64.targetExponent (totalExponent mantissa exponent) =
      max (mantissa.log2 + exponent - 52) (-1074) := by
    simp only [Format.targetExponent, totalExponent, Format.mantissaBits, Format.minExponent]
    omega
  have amount : (max (mantissa.log2 + exponent - 52) (-1074) - exponent).toNat =
      (fitting mantissa exponent - exponent).toNat := by
    rw [fitting]
    omega
  have moved : exponent + ((fitting mantissa exponent - exponent).toNat : Int) = fitting mantissa exponent := by
    rw [fitting]
    omega
  simp only [shiftToTargetExponent, shiftToExponent, target, amount, moved]

/-- A mantissa as it is rounded, before the digit that rounding may add is cut off. -/
def roundedOnce (mantissa : Nat) (exponent : Int) (accuracy : Accuracy) : Nat :=
  (ExtendedMantissa.ofMantissaAndAccuracy mantissa accuracy >>> (fitting mantissa exponent - exponent).toNat).roundedMantissa

theorem roundWithAccuracy_eq (sign : Sign) (mantissa : Nat) (exponent : Int) (accuracy : Accuracy) :
    let first := fitting mantissa exponent
    let rounded := roundedOnce mantissa exponent accuracy
    let last := rounded / 2 ^ (fitting rounded first - first).toNat
    roundWithAccuracy Format.binary64 sign mantissa exponent accuracy =
      if none : last = 0 then .zero sign else .finite sign last (fitting rounded first) (Nat.pos_of_ne_zero none) := by
  simp only [roundWithAccuracy, shiftToTargetExponent_eq, mantissa_shiftRight, mantissa_ofAccuracy]
  rfl

private theorem pack_overflow {sign : Sign} {mantissa : Nat} {exponent : Int} {positive : 0 < mantissa}
    (large : 972 ≤ exponent) :
    Float.Model.pack (.finite sign mantissa exponent positive) = .pack (.infinity sign) := by
  have biased : 2 ^ 11 ≤ (exponent + (1023 : Nat) + (52 : Nat)).toNat + 1 := by omega
  have packed : UnpackedFloat.pack Format.binary64 (.finite sign mantissa exponent positive) =
      UnpackedFloat.pack Format.binary64 (.infinity sign) := if_pos biased
  simp only [Float.Model.pack, packed]

theorem isFinite_unpack {sign : Sign} {exponent : BitVec 11} {mantissa : BitVec 52} (ordinary : exponent ≠ -1#11) :
    (unpack Format.binary64 (packComponents Format.binary64 sign exponent mantissa)).isFinite = true := by
  rw [unpack]
  simp only [unpackExponent_packComponents]
  rw [if_neg ordinary]
  split
  · split <;> rfl
  · rfl

theorem isFinite_pack {sign : Sign} {mantissa : Nat} {exponent : Int} {positive : 0 < mantissa} (small : exponent ≤ 971) :
    (Float.Model.pack (.finite sign mantissa exponent positive)).unpack.isFinite = true := by
  have biased : ¬ 2 ^ 11 ≤ (exponent + (1023 : Nat) + (52 : Nat)).toNat + 1 := by omega
  change (unpack Format.binary64 (UnpackedFloat.pack Format.binary64 _)).isFinite = true
  rw [UnpackedFloat.pack]
  split
  · next large => exact absurd large biased
  · split
    · apply isFinite_unpack
      rw [BitVec.toNat_ne, BitVec.toNat_ofNat]
      change (exponent + (1023 : Nat) + (52 : Nat)).toNat % 2 ^ 11 ≠ 2047
      omega
    · exact isFinite_unpack (by decide)

variable {mantissa : Nat} {exponent : Int}

private theorem roundedOnce_bounds (accuracy : Accuracy) {shift : Nat} (amount : fitting mantissa exponent = exponent + shift) :
    mantissa / 2 ^ shift ≤ roundedOnce mantissa exponent accuracy ∧
      roundedOnce mantissa exponent accuracy ≤ mantissa / 2 ^ shift + 1 := by
  have shifted : (fitting mantissa exponent - exponent).toNat = shift := by omega
  have cut := mantissa_shiftRight (.ofMantissaAndAccuracy mantissa accuracy) shift
  rw [mantissa_ofAccuracy] at cut
  rw [roundedOnce, shifted]
  rcases roundedMantissa_cases (ExtendedMantissa.ofMantissaAndAccuracy mantissa accuracy >>> shift) with ⟨same, -⟩ | ⟨up, -⟩
  · omega
  · omega

/-- Rounding is up or not by the first digit that is cut off, unless this leaves an even mantissa. -/
private theorem roundedOnce_odd (accuracy : Accuracy) {shift : Nat}
    (amount : fitting mantissa exponent = exponent + (shift + 1 : Nat))
    (odd : mantissa / 2 ^ (shift + 1) % 2 = 1) :
    roundedOnce mantissa exponent accuracy = mantissa / 2 ^ (shift + 1) + mantissa / 2 ^ shift % 2 := by
  have shifted : (fitting mantissa exponent - exponent).toNat = shift + 1 := by omega
  have cut := mantissa_shiftRight (.ofMantissaAndAccuracy mantissa accuracy) (shift + 1)
  have before := mantissa_shiftRight (.ofMantissaAndAccuracy mantissa accuracy) shift
  rw [mantissa_ofAccuracy] at cut before
  have digit : (ExtendedMantissa.ofMantissaAndAccuracy mantissa accuracy >>> (shift + 1)).roundBit =
      (mantissa / 2 ^ shift % 2 != 0) := by
    rw [← before]
    rfl
  rw [roundedOnce, shifted]
  rcases roundedMantissa_cases (ExtendedMantissa.ofMantissaAndAccuracy mantissa accuracy >>> (shift + 1)) with
    ⟨same, even⟩ | ⟨up, set⟩
  · rw [digit, cut] at even
    rw [same, cut]
    rcases Nat.mod_two_eq_zero_or_one (mantissa / 2 ^ shift) with zero | one
    · omega
    · have even := even (by rw [one]; rfl)
      omega
  · rw [digit] at set
    have set : mantissa / 2 ^ shift % 2 ≠ 0 := by simpa using set
    rw [up, cut]
    omega

private theorem div_lt_of_fitting {shift : Nat} (amount : fitting mantissa exponent = exponent + shift) :
    mantissa / 2 ^ shift < 2 ^ 53 := by
  have digits : mantissa.log2 + 1 ≤ 53 + shift := by
    rw [fitting] at amount
    omega
  rw [Nat.div_lt_iff_lt_mul (Nat.two_pow_pos shift), ← Nat.pow_add]
  exact Nat.lt_of_lt_of_le Nat.lt_log2_self (Nat.pow_le_pow_right (by decide) digits)

private theorem fitting_rounded_le {rounded : Nat} (bound : rounded ≤ 2 ^ 53) {first : Int} (least : -1074 ≤ first) :
    fitting rounded first ≤ first + 1 := by
  have digits : rounded.log2 < 54 := by
    rcases Nat.eq_zero_or_pos rounded with rfl | positive
    · decide
    · exact (Nat.log2_lt (Nat.ne_of_gt positive)).mpr (by omega)
  rw [fitting]
  omega

private theorem fitting_rounded_lt {rounded : Nat} (bound : rounded < 2 ^ 53) {first : Int} (least : -1074 ≤ first) :
    fitting rounded first = first := by
  have digits : rounded.log2 < 53 := by
    rcases Nat.eq_zero_or_pos rounded with rfl | positive
    · decide
    · exact (Nat.log2_lt (Nat.ne_of_gt positive)).mpr bound
  rw [fitting]
  omega

theorem isFinite_round {sign : Sign} {accuracy : Accuracy}
    (small : fitting (roundedOnce mantissa exponent accuracy) (fitting mantissa exponent) ≤ 971) :
    (Float.Model.pack (roundWithAccuracy Format.binary64 sign mantissa exponent accuracy)).unpack.isFinite = true := by
  rw [roundWithAccuracy_eq]
  split
  · cases sign <;> rfl
  · exact isFinite_pack small

private theorem exists_shift (mantissa : Nat) (exponent : Int) :
    ∃ shift : Nat, fitting mantissa exponent = exponent + shift := by
  refine ⟨(fitting mantissa exponent - exponent).toNat, ?_⟩
  rw [fitting]
  omega

private theorem div_succ_pow (mantissa steps : Nat) : mantissa / 2 ^ (steps + 1) = mantissa / 2 ^ steps / 2 := by
  rw [Nat.div_div_eq_div_mul, Nat.pow_succ]

/-- Below the bound, told in the steps of the mantissa, a number rounds to a finite double. -/
theorem isFinite_round_of_lt (sign : Sign) (accuracy : Accuracy) {steps : Nat} (place : exponent = 970 - steps)
    (below : mantissa < overflowBound steps) :
    (Float.Model.pack (roundWithAccuracy Format.binary64 sign mantissa exponent accuracy)).unpack.isFinite = true := by
  apply isFinite_round
  have least : -1074 ≤ fitting mantissa exponent := by
    rw [fitting]
    omega
  obtain ⟨shift, amount⟩ := exists_shift mantissa exponent
  have cut := div_lt_of_fitting amount
  obtain ⟨-, most⟩ := roundedOnce_bounds accuracy amount
  by_cases low : fitting mantissa exponent ≤ 970
  · have last := fitting_rounded_le (Nat.le_trans most (by omega)) least
    omega
  have nonzero : mantissa ≠ 0 := by
    rintro rfl
    rw [fitting, Nat.log2_zero] at low
    omega
  have digits : mantissa.log2 < 54 + steps := by
    rw [Nat.log2_lt nonzero]
    exact below.trans (overflowBound_lt steps)
  have top : fitting mantissa exponent = 971 := by
    rw [fitting] at low ⊢
    omega
  obtain rfl : shift = steps + 1 := by omega
  have half := div_succ_pow mantissa steps
  have within := lt_overflowBound_iff.mp below
  have stays : roundedOnce mantissa exponent accuracy < 2 ^ 53 := by
    rcases Nat.mod_two_eq_zero_or_one (mantissa / 2 ^ (steps + 1)) with even | odd
    · omega
    · rw [roundedOnce_odd accuracy amount odd]
      omega
  rw [fitting_rounded_lt stays least, top]

/-- From the bound on a number rounds to infinity. -/
theorem round_overflow (sign : Sign) (accuracy : Accuracy) {steps : Nat} (place : exponent = 970 - steps)
    (reaches : overflowBound steps ≤ mantissa) :
    Float.Model.pack (roundWithAccuracy Format.binary64 sign mantissa exponent accuracy) = .pack (.infinity sign) := by
  have nonzero : mantissa ≠ 0 := Nat.ne_of_gt (Nat.lt_of_lt_of_le (overflowBound_pos steps) reaches)
  have digits : 53 + steps ≤ mantissa.log2 := by
    rw [Nat.le_log2 nonzero]
    exact (le_overflowBound steps).trans reaches
  obtain ⟨shift, amount⟩ := exists_shift mantissa exponent
  have cut := div_lt_of_fitting amount
  have least : 2 ^ 52 ≤ mantissa / 2 ^ shift := by
    rw [Nat.le_div_iff_mul_le (Nat.two_pow_pos shift), ← Nat.pow_add, ← Nat.le_log2 nonzero]
    rw [fitting] at amount
    omega
  obtain ⟨few, most⟩ := roundedOnce_bounds accuracy amount
  have lowest : -1074 ≤ fitting mantissa exponent := by
    rw [fitting]
    omega
  have high : 972 ≤ fitting (roundedOnce mantissa exponent accuracy) (fitting mantissa exponent) := by
    by_cases above : 972 ≤ fitting mantissa exponent
    · exact above.trans (Int.le_max_left _ _)
    have top : fitting mantissa exponent = 971 := by
      rw [fitting] at above ⊢
      omega
    obtain rfl : shift = steps + 1 := by omega
    have half := div_succ_pow mantissa steps
    have within := (lt_overflowBound_iff.not.mp (Nat.not_lt.mpr reaches))
    have up : roundedOnce mantissa exponent accuracy = 2 ^ 53 := by
      rw [roundedOnce_odd accuracy amount (by omega)]
      omega
    have digits : (2 ^ 53 : Nat).log2 = 53 := Nat.log2_two_pow
    rw [up, top, fitting, digits]
    decide
  rw [roundWithAccuracy_eq]
  split
  · next none =>
    have last := fitting_rounded_le (most.trans (by omega)) lowest
    have below := (Nat.div_eq_zero_iff.mp none).resolve_left (Nat.ne_of_gt (Nat.two_pow_pos _))
    have small : 2 ^ (fitting (roundedOnce mantissa exponent accuracy) (fitting mantissa exponent) -
        fitting mantissa exponent).toNat ≤ 2 ^ 1 := Nat.pow_le_pow_right (by decide) (by omega)
    omega
  · exact pack_overflow high

/-- A double is infinite if the number that it is for reaches the bound, and finite if not. -/
structure Saturates (x : Float) (reaches : Prop) : Prop where
  finite : ¬ reaches → x.isFinite = true
  infinite : reaches → x = Number.infinity .positive

theorem Saturates.congr {x : Float} {reaches other : Prop} (saturates : Saturates x reaches) (same : other ↔ reaches) :
    Saturates x other := propext same ▸ saturates

theorem saturates_round (accuracy : Accuracy) {steps : Nat} (place : exponent = 970 - steps) :
    Saturates (.ofModel (.pack (roundWithAccuracy Format.binary64 .positive mantissa exponent accuracy)))
      (overflowBound steps ≤ mantissa) where
  finite below := isFinite_round_of_lt .positive accuracy place (Nat.lt_of_not_le below)
  infinite reaches := congrArg Float.ofModel (round_overflow .positive accuracy place reaches)

theorem saturates_zero {reaches : Prop} (below : ¬ reaches) : Saturates (.ofModel (.pack (.zero .positive))) reaches where
  finite _ := rfl
  infinite reaches := absurd reaches below

private theorem saturates_div {m n : Nat} (positive : 0 < m) (positive' : 0 < n) {d e : Int} {steps : Nat}
    (place : d - e = 970 - steps) :
    Saturates (.ofModel (.pack (UnpackedFloat.div Format.binary64 (.finite .positive m d positive)
      (.finite .positive n e positive'))))
      (overflowBound steps * n ≤ m) := by
  generalize chosen : min (d - e) (Format.binary64.targetExponent (totalExponent m d - totalExponent n e)) = target
  obtain ⟨amount, up⟩ : ∃ amount : Nat, d - e - target = amount := ⟨(d - e - target).toNat, by omega⟩
  have core : divCore Format.binary64 m d n e = (m * 2 ^ amount / n, target, accuracyOfFraction (m * 2 ^ amount % n) n) := by
    simp only [divCore, chosen, up, Int.toNat_natCast, Nat.shiftLeft_eq]
  simp only [UnpackedFloat.div, core]
  refine (saturates_round _ (show target = 970 - (steps + amount : Nat) by omega)).congr ?_
  rw [Nat.le_div_iff_mul_le positive', overflowBound_add, Nat.mul_right_comm]
  exact (Nat.mul_le_mul_right_iff (Nat.two_pow_pos amount)).symm

section

variable {n e : Nat} (small : n < 2 ^ 53) (bound : e < Float.exactlyRepresentablePowersOfTen.size)
include small bound

private theorem saturates_product :
    Saturates (n.toUInt64.toFloat * Float.exactlyRepresentablePowersOfTen[e]) (overflowBound 970 ≤ n * 10 ^ e) := by
  obtain ⟨power, positive, above, unpacked, value⟩ := unpack_powerOfTen bound
  rw [mul_eq, unpacked]
  rcases Nat.eq_zero_or_pos n with rfl | some
  · apply saturates_zero
    rw [Nat.zero_mul]
    exact Nat.not_le.mpr (overflowBound_pos 970)
  · obtain ⟨up, shifted, digits⟩ := unpack_ofUInt64 some small
    have near : above < 127 := by
      apply (Nat.pow_lt_pow_iff_right (show 1 < 2 by decide)).mp
      have most : e ≤ 22 := Nat.le_of_lt_succ bound
      calc 2 ^ above ≤ power * 2 ^ above := Nat.le_mul_of_pos_left _ positive
        _ = 10 ^ e * 2 ^ 52 := value
        _ ≤ 10 ^ 22 * 2 ^ 52 := Nat.mul_le_mul_right _ (Nat.pow_le_pow_right (by decide) most)
        _ < 2 ^ 127 := by decide
    have place : (-up + (above - 52) : Int) = 970 - (1022 + up - above : Nat) := by omega
    have steps : overflowBound (1022 + up - above) * 2 ^ above = overflowBound 970 * 2 ^ (52 + up) := by
      rw [← overflowBound_add, ← overflowBound_add]
      congr 1
      omega
    have product : n * 2 ^ up * power * 2 ^ above = n * 10 ^ e * 2 ^ (52 + up) := by
      calc n * 2 ^ up * power * 2 ^ above = n * 2 ^ up * (power * 2 ^ above) := by ring
        _ = n * 2 ^ up * (10 ^ e * 2 ^ 52) := by rw [value]
        _ = n * 10 ^ e * 2 ^ (52 + up) := by ring
    rw [digits]
    refine (saturates_round .exact place).congr ?_
    rw [← Nat.mul_le_mul_right_iff (Nat.two_pow_pos (52 + up)), ← steps, ← product]
    exact Nat.mul_le_mul_right_iff (Nat.two_pow_pos above)

private theorem saturates_quotient :
    Saturates (n.toUInt64.toFloat / Float.exactlyRepresentablePowersOfTen[e]) (overflowBound 970 * 10 ^ e ≤ n) := by
  obtain ⟨power, positive, above, unpacked, value⟩ := unpack_powerOfTen bound
  rw [div_eq, unpacked]
  rcases Nat.eq_zero_or_pos n with rfl | some
  · apply saturates_zero
    exact Nat.not_le.mpr (Nat.mul_pos (overflowBound_pos 970) (Nat.pow_pos (by decide)))
  · obtain ⟨up, shifted, digits⟩ := unpack_ofUInt64 some small
    have place : (-up - (above - 52) : Int) = 970 - (918 + up + above : Nat) := by omega
    have product : overflowBound (918 + up + above) * power = overflowBound 970 * 10 ^ e * 2 ^ up := by
      calc overflowBound (918 + up + above) * power = overflowBound 918 * 2 ^ up * (power * 2 ^ above) := by
            rw [overflowBound_add, overflowBound_add]
            ring
        _ = overflowBound 918 * 2 ^ 52 * 10 ^ e * 2 ^ up := by
            rw [value]
            ring
        _ = overflowBound 970 * 10 ^ e * 2 ^ up := by rw [← overflowBound_add]
    rw [digits]
    refine (saturates_div shifted positive place).congr ?_
    rw [product]
    exact (Nat.mul_le_mul_right_iff (Nat.two_pow_pos up)).symm

end

private theorem overflowBound_le_pow {steps e : Nat} (large : 54 + steps ≤ e) : overflowBound steps ≤ 10 ^ e := by
  calc overflowBound steps ≤ 2 ^ (54 + steps) := Nat.le_of_lt (overflowBound_lt steps)
    _ ≤ 2 ^ e := Nat.pow_le_pow_right (by decide) large
    _ ≤ 10 ^ e := Nat.pow_le_pow_left (by decide) e

private theorem saturates_whole (n e : Nat) : Saturates (Float.ofScientific n false e) (overflowBound 970 ≤ n * 10 ^ e) := by
  unfold Float.ofScientific
  split
  · next small => exact saturates_product small.1 (Nat.lt_succ_of_le small.2)
  change Saturates (.ofModel (.pack (UnpackedFloat.ofScientific Format.binary64 n e))) _
  rw [UnpackedFloat.ofScientific]
  split
  · next none =>
    apply saturates_zero
    rw [none, Nat.zero_mul]
    exact Nat.not_le.mpr (overflowBound_pos 970)
  next some =>
  split
  · next large =>
    have large : 54 + 970 ≤ e := by
      change ((2 : Int) ^ 11 < e) at large
      omega
    have reaches : overflowBound 970 ≤ n * 10 ^ e :=
      (overflowBound_le_pow large).trans (Nat.le_mul_of_pos_left _ (Nat.pos_of_ne_zero some))
    exact ⟨fun below => absurd reaches below, fun _ => rfl⟩
  split
  · next small =>
    change ((e : Int) < -(2 ^ 11 + _)) at small
    omega
  split
  · have place : (-53 + 0 : Int) = 970 - (1023 : Nat) := rfl
    refine (saturates_round .exact place).congr ?_
    have product : n <<< 53 * 10 ^ e = n * 10 ^ e * 2 ^ 53 := by
      rw [Nat.shiftLeft_eq, Nat.mul_right_comm]
    have steps : overflowBound 1023 = overflowBound 970 * 2 ^ 53 := overflowBound_add 970 53
    rw [Int.toNat_natCast]
    change _ ↔ overflowBound 1023 ≤ n <<< 53 * 10 ^ e
    rw [product, steps]
    exact (Nat.mul_le_mul_right_iff (Nat.two_pow_pos 53)).symm
  · next negative => exact absurd (Int.natCast_nonneg e) negative

private theorem saturates_fraction (n e : Nat) :
    Saturates (Float.ofScientific n true (e + 1)) (overflowBound 970 * 10 ^ (e + 1) ≤ n) := by
  unfold Float.ofScientific
  split
  · next small => exact saturates_quotient small.1 (Nat.lt_succ_of_le small.2)
  change Saturates (.ofModel (.pack (UnpackedFloat.ofScientific Format.binary64 n (Int.negOfNat (e + 1))))) _
  rw [Int.negOfNat_eq, UnpackedFloat.ofScientific]
  split
  · next none =>
    apply saturates_zero
    rw [none]
    exact Nat.not_le.mpr (Nat.mul_pos (overflowBound_pos 970) (Nat.pow_pos (by decide)))
  next some =>
  split
  · next large =>
    change ((2 : Int) ^ 11 < -((e + 1 : Nat) : Int)) at large
    omega
  split
  · next small =>
    apply saturates_zero
    change (-((e + 1 : Nat) : Int) < -(2 ^ 11 + (n.log2 : Int))) at small
    rw [Nat.not_le]
    calc n < 2 ^ (n.log2 + 1) := Nat.lt_log2_self
      _ ≤ 2 ^ (e + 1) := Nat.pow_le_pow_right (by decide) (by omega)
      _ ≤ 10 ^ (e + 1) := Nat.pow_le_pow_left (by decide) (e + 1)
      _ ≤ overflowBound 970 * 10 ^ (e + 1) := Nat.le_mul_of_pos_left _ (overflowBound_pos 970)
  split
  · next whole =>
    change ((0 : Int) ≤ -((e + 1 : Nat) : Int)) at whole
    omega
  · have place : (0 - 0 : Int) = 970 - (970 : Nat) := rfl
    simp only [Int.neg_neg]
    exact saturates_div (Nat.pos_of_ne_zero some) (Nat.pow_pos (by decide)) place

private theorem saturates_scaled (digits : Nat) (exponent : Int) :
    Saturates (scaled digits exponent) ((overflowBound 970 : ℚ) ≤ digits * 10 ^ exponent) := by
  cases exponent with
  | ofNat e =>
    refine (saturates_whole digits e).congr ?_
    rw [Int.ofNat_eq_natCast, zpow_natCast]
    exact_mod_cast Iff.rfl
  | negSucc e =>
    refine (saturates_fraction digits e).congr ?_
    rw [zpow_negSucc, ← div_eq_mul_inv, le_div_iff₀ (by positivity)]
    exact_mod_cast Iff.rfl

private theorem cast_overflowBound (steps : Nat) : (overflowBound steps : ℚ) = 2 ^ (54 + steps) - 2 ^ steps := by
  rw [overflowBound, pow_add]
  push_cast
  ring

end Formula.Doubles

namespace Formula.Numeral

open Formula.Doubles

def value (numeral : Numeral) : ℚ :=
  Nat.ofDigitChars 10 (numeral.whole ++ numeral.places) 0 * 10 ^ (numeral.exponent - numeral.places.length)

def TooLarge (numeral : Numeral) : Prop := 2 ^ 1024 - 2 ^ 970 ≤ numeral.value

theorem saturates (numeral : Numeral) : Saturates numeral.toFloat numeral.TooLarge := by
  have saturates := saturates_scaled (Nat.ofDigitChars 10 (numeral.whole ++ numeral.places) 0)
    (numeral.exponent - numeral.places.length)
  rw [cast_overflowBound] at saturates
  exact saturates

theorem toFloat_eq_infinity_iff {numeral : Numeral} : numeral.toFloat = Number.infinity .positive ↔ numeral.TooLarge := by
  refine ⟨fun same => ?_, numeral.saturates.infinite⟩
  by_contra below
  have finite := numeral.saturates.finite below
  rw [same] at finite
  cases finite

theorem isFinite_toFloat_iff {numeral : Numeral} : numeral.toFloat.isFinite = true ↔ ¬ numeral.TooLarge := by
  refine ⟨fun finite large => ?_, numeral.saturates.finite⟩
  rw [numeral.saturates.infinite large] at finite
  cases finite

end Formula.Numeral
