import Formula.Proofs.Doubles
import Formula.Proofs.Grammar

/-! The decimals of doubles. All digits of a finite double read back as the double, so that
the search for the shortest of its decimals ends with one that reads back. The text of a
decimal is a numeral of the grammar. -/

namespace Formula.Doubles

open Float.Model (Format UnpackedFloat totalExponent)
open Float.Model.UnpackedFloat

private def isPowerOfTen (e : Nat) (x : Float) : Bool :=
  match x.toModel.unpack with
  | .finite .positive mantissa exponent _ =>
    -52 ≤ exponent && mantissa * 2 ^ (exponent + 52).toNat == 10 ^ e * 2 ^ 52
  | _ => false

private theorem powersOfTen : ∀ e : Fin 23, isPowerOfTen e Float.exactlyRepresentablePowersOfTen[e] = true := by
  decide +kernel

theorem unpack_powerOfTen {e : Nat} (small : e < Float.exactlyRepresentablePowersOfTen.size) :
    ∃ (mantissa : Nat) (positive : 0 < mantissa) (above : Nat),
      Float.exactlyRepresentablePowersOfTen[e].toModel.unpack = .finite .positive mantissa (above - 52) positive ∧
        mantissa * 2 ^ above = 10 ^ e * 2 ^ 52 := by
  have isPower : isPowerOfTen e Float.exactlyRepresentablePowersOfTen[e] = true := powersOfTen ⟨e, small⟩
  unfold isPowerOfTen at isPower
  split at isPower
  · next mantissa exponent positive unpacked =>
    simp only [Bool.and_eq_true, decide_eq_true_eq, beq_iff_eq] at isPower
    obtain ⟨least, value⟩ := isPower
    refine ⟨mantissa, positive, (exponent + 52).toNat, ?_, value⟩
    rw [unpacked, show ((exponent + 52).toNat : Int) - 52 = exponent by omega]
  · cases isPower

theorem mul_eq (x y : Float) :
    x * y = .ofModel (.pack (UnpackedFloat.mul Format.binary64 x.toModel.unpack y.toModel.unpack)) := rfl

theorem div_eq (x y : Float) :
    x / y = .ofModel (.pack (UnpackedFloat.div Format.binary64 x.toModel.unpack y.toModel.unpack)) := rfl

private theorem ofScientific_whole {mantissa exponent : Nat} (canonical : Canonical mantissa exponent) :
    Float.ofScientific (mantissa * 2 ^ exponent) false 0 =
      .ofModel (.pack (.finite .positive mantissa exponent canonical.positive)) := by
  have positive : 0 < mantissa * 2 ^ exponent := Nat.mul_pos canonical.positive (Nat.two_pow_pos exponent)
  unfold Float.ofScientific
  split
  · next small =>
    obtain ⟨up, shifted, digits⟩ := unpack_ofUInt64 positive small.1
    have one : Float.exactlyRepresentablePowersOfTen[0].toModel.unpack = .finite .positive (2 ^ 52) (-52) (by decide) := rfl
    have exact := round_shifted canonical .positive (exponent + up + 52)
    have product : mantissa * 2 ^ exponent * 2 ^ up * 2 ^ 52 = mantissa * 2 ^ (exponent + up + 52) := by ring
    have place : (-up + -52 : Int) = exponent - (exponent + up + 52 : Nat) := by omega
    rw [← place, ← product] at exact
    simp only [mul_eq, digits, one]
    exact congrArg (fun result => Float.ofModel (.pack result)) exact
  · have exact := round_shifted canonical .positive (exponent + 53)
    have product : (mantissa * 2 ^ exponent) <<< 53 * 10 ^ 0 = mantissa * 2 ^ (exponent + 53) := by
      rw [Nat.shiftLeft_eq]
      ring
    have place : (-53 + 0 : Int) = exponent - (exponent + 53 : Nat) := by omega
    rw [← place, ← product] at exact
    have slow : UnpackedFloat.ofScientific Format.binary64 (mantissa * 2 ^ exponent) 0 =
        .finite .positive mantissa exponent canonical.positive := by
      rw [UnpackedFloat.ofScientific, dif_neg (Nat.ne_of_gt positive), if_neg (by decide), if_neg, if_pos (by decide)]
      · exact exact
      · change ¬ ((0 : Int) < -(2 ^ 11 + _))
        omega
    change Float.ofModel (.pack (UnpackedFloat.ofScientific Format.binary64 (mantissa * 2 ^ exponent) 0)) = _
    rw [slow]

private theorem ofScientific_fraction {mantissa places : Nat} (canonical : Canonical mantissa (-places))
    (some : 0 < places) : Float.ofScientific (mantissa * 5 ^ places) true places =
      .ofModel (.pack (.finite .positive mantissa (-places) canonical.positive)) := by
  have positive : 0 < mantissa * 5 ^ places := Nat.mul_pos canonical.positive (Nat.pow_pos (by decide))
  have ten : 10 ^ places = 5 ^ places * 2 ^ places := Nat.mul_pow 5 2 places
  have least := canonical.least
  unfold Float.ofScientific
  split
  · next small =>
    obtain ⟨up, shifted, digits⟩ := unpack_ofUInt64 positive small.1
    have bound : places < Float.exactlyRepresentablePowersOfTen.size := Nat.lt_succ_of_le small.2
    obtain ⟨power, positive', above, unpacked, value⟩ := unpack_powerOfTen bound
    have equal : mantissa * 5 ^ places * 2 ^ up * 2 ^ (places + 52) = mantissa * power * 2 ^ (above + up) := by
      calc mantissa * 5 ^ places * 2 ^ up * 2 ^ (places + 52)
          = mantissa * (5 ^ places * 2 ^ places * 2 ^ 52) * 2 ^ up := by ring
        _ = mantissa * (power * 2 ^ above) * 2 ^ up := by rw [value, ten]
        _ = mantissa * power * 2 ^ (above + up) := by ring
    have place : (-up - (above - 52) : Int) = -places + (places + 52 : Nat) - (above + up : Nat) := by omega
    have exact := div_exact canonical shifted positive' equal place
    simp only [div_eq, digits, if_true]
    rw [unpacked, exact]
  · have equal : mantissa * 5 ^ places * 2 ^ places = mantissa * 10 ^ places * 2 ^ 0 := by
      rw [ten]
      ring
    have place : (0 - 0 : Int) = -places + (places : Nat) - (0 : Nat) := by omega
    have exact := div_exact canonical positive (Nat.pow_pos (by decide)) equal place
    have slow : UnpackedFloat.ofScientific Format.binary64 (mantissa * 5 ^ places) (-places) =
        .finite .positive mantissa (-places) canonical.positive := by
      rw [UnpackedFloat.ofScientific, dif_neg (Nat.ne_of_gt positive), if_neg, if_neg, if_neg (by omega)]
      · simp only [Int.neg_neg, Int.toNat_natCast]
        exact exact
      · change ¬ (-(places : Int) < -(2 ^ 11 + _))
        omega
      · change ¬ (-(places : Int) > 2 ^ 11)
        omega
    have negative : Int.negOfNat places = -places := by cases places <;> rfl
    simp only [if_true, negative]
    change Float.ofModel (.pack (UnpackedFloat.ofScientific Format.binary64 (mantissa * 5 ^ places) (-places))) = _
    rw [slow]

private theorem exact_toFloat {mantissa : Nat} {exponent : Int} (canonical : Canonical mantissa exponent) :
    (Decimal.exact mantissa exponent).toFloat = .ofModel (.pack (.finite .positive mantissa exponent canonical.positive)) := by
  cases exponent with
  | ofNat exponent => exact ofScientific_whole canonical
  | negSucc exponent => exact ofScientific_fraction canonical (Nat.succ_pos exponent)

/-- The shortest decimal of a finite double reads back as the double. -/
theorem shortest_toFloat {x : Float} {mantissa : Nat} {exponent : Int} {positive : 0 < mantissa}
    (unpacked : x.toModel.unpack = .finite .positive mantissa exponent positive) :
    (Decimal.shortest x).toFloat = x := by
  have canonical := canonical_of_unpack unpacked
  simp only [Decimal.shortest, unpacked]
  generalize search : List.findSome? _ _ = found
  cases found with
  | some candidate =>
    obtain ⟨count, -, near⟩ := List.exists_of_findSome?_eq_some search
    have taken := List.find?_some near
    exact of_decide_eq_true taken
  | none => exact (exact_toFloat canonical).trans (eq_pack_of_unpack unpacked).symm

def numeralOf (decimal : Decimal) : Numeral where
  whole := decimal.whole
  fraction := if decimal.places = 0 then [] else '.' :: decimal.fraction
  power := []

theorem numeralOf_chars (decimal : Decimal) : (numeralOf decimal).chars = decimal.text := by
  simp only [numeralOf, Numeral.chars, Decimal.text]
  split <;> simp

theorem digits_isDigit (decimal : Decimal) : ∀ c ∈ decimal.digits, c.isDigit = true := by
  intro c member
  rcases List.mem_append.mp member with zero | digit
  · rw [List.eq_of_mem_replicate zero]
    rfl
  · exact Nat.isDigit_of_mem_toDigits (by decide) (by decide) digit

theorem length_digits (decimal : Decimal) : decimal.places < decimal.digits.length := by
  simp only [Decimal.digits, List.length_append, List.length_replicate]
  omega

private theorem whole_append_fraction (decimal : Decimal) : decimal.whole ++ decimal.fraction = decimal.digits :=
  List.take_append_drop _ _

theorem numeralOf_valid (decimal : Decimal) : Grammar.IsNumber (numeralOf decimal) := by
  have long := length_digits decimal
  have whole : Grammar.Digits decimal.whole := by
    refine ⟨?_, fun c member => digits_isDigit decimal c (List.mem_of_mem_take member)⟩
    intro empty
    have length := congrArg List.length empty
    simp only [Decimal.whole, List.length_take, List.length_nil] at length
    omega
  refine ⟨?_, .absent⟩
  simp only [numeralOf]
  split
  · exact .whole whole
  · exact .mixed whole fun c member => digits_isDigit decimal c (List.mem_of_mem_drop member)

theorem numeralOf_toFloat (decimal : Decimal) : (numeralOf decimal).toFloat = decimal.toFloat := by
  have value : Nat.ofDigitChars 10 decimal.digits 0 = decimal.coefficient := by
    rw [Decimal.digits, Nat.ofDigitChars_append, Nat.ofDigitChars_replicate_zero, Nat.mul_zero,
      Nat.ofDigitChars_ten_toDigits]
  have places : (numeralOf decimal).places = decimal.fraction := by
    by_cases none : decimal.places = 0
    · simp [numeralOf, Numeral.places, Decimal.fraction, none]
    · simp [numeralOf, Numeral.places, none]
  have length : decimal.fraction.length = decimal.places := by
    have long := length_digits decimal
    simp only [Decimal.fraction, List.length_drop]
    omega
  have exponent : (numeralOf decimal).exponent = 0 := rfl
  rw [Numeral.toFloat, places, exponent, length, Decimal.toFloat, Int.zero_sub]
  change scaled (Nat.ofDigitChars 10 (decimal.whole ++ decimal.fraction) 0) _ = _
  rw [whole_append_fraction, value]

end Formula.Doubles
