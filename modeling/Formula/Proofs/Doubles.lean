import Mathlib
import Formula.Number

/-! Finite doubles as a mantissa times a power of two. A double has one such pair in its
format; packing the pair gives the double again, and rounding a multiple of the pair that is
as large gives the pair itself. -/

namespace Formula.Doubles

open Float.Model (Format UnpackedFloat totalExponent)
open Float.Model.UnpackedFloat

/-- A mantissa and an exponent as a finite double has them. -/
structure Canonical (mantissa : Nat) (exponent : Int) : Prop where
  positive : 0 < mantissa
  fits : mantissa < 2 ^ 53
  least : -1074 ≤ exponent
  most : exponent ≤ 971
  normal : 2 ^ 52 ≤ mantissa ∨ exponent = -1074

theorem Canonical.log2_lt {mantissa : Nat} {exponent : Int} (canonical : Canonical mantissa exponent) :
    mantissa.log2 < 53 :=
  (Nat.log2_lt (Nat.ne_of_gt canonical.positive)).mpr canonical.fits

theorem Canonical.target {mantissa : Nat} {exponent : Int} (canonical : Canonical mantissa exponent) :
    Format.binary64.targetExponent (totalExponent mantissa exponent) = exponent := by
  have high := canonical.log2_lt
  have least := canonical.least
  simp only [Format.targetExponent, totalExponent, Format.mantissaBits, Format.minExponent]
  rcases canonical.normal with normal | least
  · have low : 52 ≤ mantissa.log2 := (Nat.le_log2 (Nat.ne_of_gt canonical.positive)).mpr normal
    omega
  · omega

theorem eq_pack_of_unpack {x : Float} {u : UnpackedFloat} (unpacked : x.toModel.unpack = u) : x = .ofModel (.pack u) := by
  obtain ⟨⟨⟨bits⟩, valid⟩⟩ := x
  have packed : UnpackedFloat.pack Format.binary64 u = bits := by
    rw [← unpacked]
    exact pack_unpack_of_valid valid
  simp only [Float.Model.pack, packed]

private theorem toNat_implicit (mantissa : BitVec 52) : (1#1 ++ mantissa).toNat = 2 ^ 52 + mantissa.toNat := by
  rw [BitVec.toNat_append, ← Nat.shiftLeft_add_eq_or_of_lt mantissa.isLt]
  simp [Nat.shiftLeft_eq]

/-- The packed exponent of a finite double, zero for the subnormal ones. -/
def biased (mantissa : Nat) (exponent : Int) : Nat := if 2 ^ 52 ≤ mantissa then (exponent + 1075).toNat else 0

private theorem biased_eq (exponent : Int) :
    exponent + Format.binary64.exponentBias + (52 : Nat) = exponent + 1075 := by
  change exponent + (1023 : Nat) + (52 : Nat) = _
  omega

theorem pack_canonical {mantissa : Nat} {exponent : Int} (canonical : Canonical mantissa exponent) (sign : Sign) :
    UnpackedFloat.pack Format.binary64 (.finite sign mantissa exponent canonical.positive) =
      packComponents Format.binary64 sign (.ofNat 11 (biased mantissa exponent)) (.ofNat 52 mantissa) := by
  have least := canonical.least
  have most := canonical.most
  have small : ¬ 2 ^ 11 ≤ (exponent + 1075).toNat + 1 := by omega
  have nonzero : mantissa ≠ 0 := Nat.ne_of_gt canonical.positive
  have high := canonical.log2_lt
  rw [UnpackedFloat.pack]
  simp only [biased_eq, if_neg small]
  change (if mantissa.log2 + 1 = 53 then _ else _) = _
  by_cases normal : 2 ^ 52 ≤ mantissa
  · have low : 52 ≤ mantissa.log2 := (Nat.le_log2 nonzero).mpr normal
    rw [biased, if_pos normal, if_pos (by omega)]
  · have low : mantissa.log2 < 52 := (Nat.log2_lt nonzero).mpr (Nat.lt_of_not_le normal)
    rw [biased, if_neg normal, if_neg (by omega)]

theorem canonical_of_unpack {bits : BitVec Format.binary64.numBits} {sign : Sign} {mantissa : Nat} {exponent : Int}
    {positive : 0 < mantissa} (unpacked : unpack Format.binary64 bits = .finite sign mantissa exponent positive) :
    Canonical mantissa exponent := by
  have bound : (unpackMantissa bits).toNat < 2 ^ 52 := BitVec.isLt _
  have bound' : (unpackExponent bits).toNat < 2 ^ 11 := BitVec.isLt _
  rw [unpack] at unpacked
  split at unpacked
  · split at unpacked <;> cases unpacked
  · next ordinary =>
    have top : (unpackExponent bits).toNat ≠ 2 ^ 11 - 1 := by
      intro same
      exact ordinary (BitVec.eq_of_toNat_eq same)
    split at unpacked
    · next zero =>
      split at unpacked
      · cases unpacked
      · have least : ((unpackExponent bits).toNat : Int) -
            (Format.binary64.exponentBias + Format.binary64.mantissaBitsWithoutImplicit) + 1 = -1074 := by
          rw [zero]
          rfl
        rw [least] at unpacked
        cases unpacked
        exact ⟨positive, by omega, by omega, by omega, .inr rfl⟩
    · next nonzero =>
      have some : (unpackExponent bits).toNat ≠ 0 := by
        intro same
        exact nonzero (BitVec.eq_of_toNat_eq same)
      have shifted : ((unpackExponent bits).toNat : Int) -
          (Format.binary64.exponentBias + Format.binary64.mantissaBitsWithoutImplicit) =
            (unpackExponent bits).toNat - 1075 := rfl
      rw [shifted] at unpacked
      cases unpacked
      have implicit := toNat_implicit (unpackMantissa bits)
      exact ⟨positive, by omega, by omega, by omega, .inl (by omega)⟩

theorem unpack_pack {mantissa : Nat} {exponent : Int} (canonical : Canonical mantissa exponent) (sign : Sign) :
    (Float.Model.pack (.finite sign mantissa exponent canonical.positive)).unpack =
      .finite sign mantissa exponent canonical.positive := by
  have least := canonical.least
  have most := canonical.most
  have fits := canonical.fits
  have positive := canonical.positive
  change unpack Format.binary64 (UnpackedFloat.pack Format.binary64 _) = _
  rw [pack_canonical canonical, unpack]
  simp only [unpackMantissa_packComponents, unpackExponent_packComponents, unpackSign_packComponents,
    Sign.ofBitVec_toBitVec]
  by_cases normal : 2 ^ 52 ≤ mantissa
  · have exponents : (BitVec.ofNat 11 (biased mantissa exponent)).toNat = (exponent + 1075).toNat := by
      rw [biased, if_pos normal, BitVec.toNat_ofNat]
      omega
    have ordinary : BitVec.ofNat 11 (biased mantissa exponent) ≠ -1#11 := by
      rw [BitVec.toNat_ne, exponents]
      change _ ≠ 2047
      omega
    have nonzero : BitVec.ofNat 11 (biased mantissa exponent) ≠ 0#11 := by
      rw [BitVec.toNat_ne, exponents]
      change _ ≠ 0
      omega
    have implicit : (1#1 ++ BitVec.ofNat 52 mantissa).toNat = mantissa := by
      rw [toNat_implicit, BitVec.toNat_ofNat]
      omega
    rw [if_neg ordinary, if_neg nonzero]
    simp only [exponents, implicit]
    congr 1
    change ((exponent + 1075).toNat : Int) - (1023 + 52) = exponent
    omega
  · have least : exponent = -1074 := canonical.normal.resolve_left normal
    have zero : BitVec.ofNat 11 (biased mantissa exponent) = 0#11 := by rw [biased, if_neg normal]
    have same : (BitVec.ofNat 52 mantissa).toNat = mantissa := by
      rw [BitVec.toNat_ofNat]
      omega
    have some : BitVec.ofNat 52 mantissa ≠ 0#52 := by
      rw [BitVec.toNat_ne, same]
      exact Nat.ne_of_gt positive
    rw [zero, if_neg (by decide), if_pos rfl, dif_neg some]
    simp only [same, least]
    rfl

theorem log2_shifted {n : Nat} (positive : 0 < n) (shift : Nat) : (n * 2 ^ shift).log2 = n.log2 + shift := by
  induction shift with
  | zero => rw [Nat.pow_zero, Nat.mul_one, Nat.add_zero]
  | succ shift ih =>
    have nonzero : n * 2 ^ shift ≠ 0 := Nat.ne_of_gt (Nat.mul_pos positive (Nat.two_pow_pos shift))
    rw [Nat.pow_succ, ← Nat.mul_assoc, Nat.mul_comm, Nat.log2_two_mul nonzero, ih, Nat.add_assoc]

private theorem shiftRight_exact (n shift : Nat) :
    ExtendedMantissa.ofMantissaAndAccuracy (n * 2 ^ shift) .exact >>> shift = .ofMantissaAndAccuracy n .exact := by
  induction shift generalizing n with
  | zero =>
    rw [Nat.pow_zero, Nat.mul_one]
    rfl
  | succ shift ih =>
    change ExtendedMantissa.shiftRightOne (ExtendedMantissa.ofMantissaAndAccuracy (n * 2 ^ (shift + 1)) .exact >>> shift) = _
    rw [show n * 2 ^ (shift + 1) = n * 2 * 2 ^ shift by ring, ih]
    simp [ExtendedMantissa.shiftRightOne, ExtendedMantissa.ofMantissaAndAccuracy]

private theorem shift_shifted {mantissa : Nat} {exponent : Int} (canonical : Canonical mantissa exponent) (shift : Nat) :
    shiftToTargetExponent Format.binary64 (mantissa * 2 ^ shift) (exponent - shift) .exact =
      (.ofMantissaAndAccuracy mantissa .exact, exponent) := by
  have same : totalExponent (mantissa * 2 ^ shift) (exponent - shift) = totalExponent mantissa exponent := by
    simp only [totalExponent, log2_shifted canonical.positive]
    omega
  have amount : (exponent - (exponent - shift)).toNat = shift := by omega
  simp only [shiftToTargetExponent, same, canonical.target, shiftToExponent, amount, shiftRight_exact]
  rw [show exponent - shift + shift = exponent by omega]

theorem round_shifted {mantissa : Nat} {exponent : Int} (canonical : Canonical mantissa exponent) (sign : Sign)
    (shift : Nat) : roundWithAccuracy Format.binary64 sign (mantissa * 2 ^ shift) (exponent - shift) .exact =
      .finite sign mantissa exponent canonical.positive := by
  have once := shift_shifted canonical shift
  have again := shift_shifted canonical 0
  rw [Nat.pow_zero, Nat.mul_one, Nat.cast_zero, Int.sub_zero] at again
  have kept : (ExtendedMantissa.ofMantissaAndAccuracy mantissa .exact).roundedMantissa = mantissa := rfl
  simp only [roundWithAccuracy, once, kept, again]
  exact dif_neg (Nat.ne_of_gt canonical.positive)

private theorem log2_mul_le {m n : Nat} (positive : 0 < m) (positive' : 0 < n) :
    (m * n).log2 ≤ m.log2 + n.log2 + 1 := by
  have nonzero : m * n ≠ 0 := Nat.ne_of_gt (Nat.mul_pos positive positive')
  apply Nat.le_of_lt_succ
  rw [Nat.log2_lt nonzero]
  calc m * n < 2 ^ (m.log2 + 1) * 2 ^ (n.log2 + 1) := Nat.mul_lt_mul'' Nat.lt_log2_self Nat.lt_log2_self
    _ = 2 ^ (m.log2 + n.log2 + 1 + 1) := by ring

theorem div_exact {mantissa : Nat} {exponent : Int} (canonical : Canonical mantissa exponent) {m n : Nat} {d e : Int}
    (positive : 0 < m) (positive' : 0 < n) {a b : Nat} (equal : m * 2 ^ a = mantissa * n * 2 ^ b)
    (exponents : d - e = exponent + a - b) :
    UnpackedFloat.div Format.binary64 (.finite .positive m d positive) (.finite .positive n e positive') =
      .finite .positive mantissa exponent canonical.positive := by
  have logs : m.log2 + a = (mantissa * n).log2 + b := by
    rw [← log2_shifted positive, equal, log2_shifted (Nat.mul_pos canonical.positive positive')]
  have product := log2_mul_le canonical.positive positive'
  generalize chosen : min (d - e) (Format.binary64.targetExponent (totalExponent m d - totalExponent n e)) = target
  have low : target ≤ exponent := by
    have own := canonical.target
    simp only [Format.targetExponent, totalExponent] at chosen own
    omega
  obtain ⟨shift, excess⟩ : ∃ shift : Nat, exponent = target + shift := ⟨(exponent - target).toNat, by omega⟩
  obtain ⟨amount, up⟩ : ∃ amount : Nat, d - e - target = amount := ⟨(d - e - target).toNat, by omega⟩
  have multiple : m * 2 ^ amount = mantissa * 2 ^ shift * n := by
    apply Nat.eq_of_mul_eq_mul_right (Nat.two_pow_pos b)
    calc m * 2 ^ amount * 2 ^ b = m * 2 ^ (amount + b) := by ring
      _ = m * 2 ^ (a + shift) := by rw [show amount + b = a + shift by omega]
      _ = m * 2 ^ a * 2 ^ shift := by ring
      _ = mantissa * n * 2 ^ b * 2 ^ shift := by rw [equal]
      _ = mantissa * 2 ^ shift * n * 2 ^ b := by ring
  have core : divCore Format.binary64 m d n e = (mantissa * 2 ^ shift, exponent - shift, .exact) := by
    simp only [divCore, chosen, up, Int.toNat_natCast, Nat.shiftLeft_eq, multiple, Nat.mul_div_cancel _ positive',
      Nat.mul_mod_left, accuracyOfFraction, if_true]
    rw [show exponent - shift = target by omega]
  simp only [UnpackedFloat.div, core]
  exact round_shifted canonical .positive shift

/-- A small natural number as a double: its digits are moved up to the first place. -/
theorem canonical_ofNat {n : Nat} (positive : 0 < n) (small : n < 2 ^ 53) :
    Canonical (n * 2 ^ (52 - n.log2)) (-(52 - n.log2 : Nat)) := by
  have high : n.log2 < 53 := (Nat.log2_lt (Nat.ne_of_gt positive)).mpr small
  have nonzero : n * 2 ^ (52 - n.log2) ≠ 0 := Nat.ne_of_gt (Nat.mul_pos positive (Nat.two_pow_pos _))
  have log : (n * 2 ^ (52 - n.log2)).log2 = 52 := by
    rw [log2_shifted positive]
    omega
  have bounds := (Nat.log2_eq_iff nonzero).mp log
  exact ⟨Nat.pos_of_ne_zero nonzero, bounds.2, by omega, by omega, .inl bounds.1⟩

theorem unpack_ofUInt64 {n : Nat} (positive : 0 < n) (small : n < 2 ^ 53) : ∃ (up : Nat) (shifted : 0 < n * 2 ^ up),
    n.toUInt64.toFloat.toModel.unpack = .finite .positive (n * 2 ^ up) (-up) shifted := by
  have canonical := canonical_ofNat positive small
  have word : n.toUInt64.toNat = n := by
    rw [Nat.toUInt64, UInt64.toNat_ofNat']
    omega
  have high : n.log2 < 53 := (Nat.log2_lt (Nat.ne_of_gt positive)).mpr small
  have order : compare (n : Int) 0 = .gt := Int.compare_eq_gt.mpr (by omega)
  have target : Format.binary64.targetExponent (totalExponent n 0) = -(52 - n.log2 : Nat) := by
    simp only [Format.targetExponent, totalExponent, Format.mantissaBits, Format.minExponent]
    omega
  have amount : (- -((52 - n.log2 : Nat) : Int)).toNat = 52 - n.log2 := by omega
  have rounded := round_shifted canonical .positive 0
  rw [Nat.pow_zero, Nat.mul_one, Nat.cast_zero, Int.sub_zero] at rounded
  have converted : UnpackedFloat.ofUInt64 Format.binary64 n.toUInt64 =
      .finite .positive (n * 2 ^ (52 - n.log2)) (-(52 - n.log2 : Nat)) canonical.positive := by
    simp only [UnpackedFloat.ofUInt64, UnpackedFloat.ofNat, UnpackedFloat.ofInt, UnpackedFloat.normalize, word, order,
      Int.toNat_natCast, UnpackedFloat.round, target, decreaseExponent, Int.zero_sub, amount, Nat.shiftLeft_eq]
    exact rounded
  refine ⟨52 - n.log2, canonical.positive, ?_⟩
  change (Float.Model.pack (UnpackedFloat.ofUInt64 Format.binary64 n.toUInt64)).unpack = _
  rw [converted, unpack_pack canonical]

end Formula.Doubles
