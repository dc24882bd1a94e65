import Formula.Proofs.Decimals

/-! Doubles without a sign, which are what numerals come to: none of the steps from a numeral
to its double makes a sign. Their texts are numerals again, and the text of any other finite
double is a sign and one of theirs. -/

namespace Formula.Doubles

open Float.Model (Format UnpackedFloat)
open Float.Model.UnpackedFloat

/-- A double without a sign that is neither infinite nor NaN. -/
inductive Plain (x : Float) : Prop where
  | zero (unpacked : x.toModel.unpack = .zero .positive)
  | finite {mantissa exponent positive} (unpacked : x.toModel.unpack = .finite .positive mantissa exponent positive)

theorem Plain.isFinite {x : Float} (plain : Plain x) : x.isFinite = true := by
  change x.toModel.unpack.isFinite = true
  cases plain with
  | zero unpacked | finite unpacked =>
    rw [unpacked]
    rfl

theorem Plain.ne_neg_zero {x : Float} (plain : Plain x) : x ≠ -0 := by
  have none : (-0 : Float).toModel.unpack = .zero .negative := rfl
  rintro rfl
  cases plain with
  | zero unpacked | finite unpacked =>
    rw [none] at unpacked
    cases unpacked

theorem eq_zero_of_beq {x : Float} (other : x ≠ -0) (zero : (x == 0) = true) : x = 0 := by
  obtain ⟨-, -, same | ⟨same, -⟩ | ⟨same, -⟩⟩ := Float.beq_iff_ne_nan_and_eq.mp zero
  · exact same
  · exact same
  · exact absurd same other

theorem Plain.beq_self {x : Float} (plain : Plain x) : (x == x) = true := by
  change (x.toModel.unpack.compare x.toModel.unpack == some .eq) = true
  cases plain with
  | zero unpacked =>
    rw [unpacked]
    rfl
  | finite unpacked => simp [unpacked, UnpackedFloat.compare, Std.ReflCmp.compare_self]

/-- A finite double other than the negative zero is plain or the negation of one. -/
theorem plain_or_negative {x : Float} (finite : x.isFinite = true) (other : x ≠ -0) :
    Plain x ∨ ∃ mantissa exponent positive, x.toModel.unpack = .finite .negative mantissa exponent positive := by
  have finite : x.toModel.unpack.isFinite = true := finite
  cases unpacked : x.toModel.unpack with
  | notANumber | infinity sign =>
    rw [unpacked] at finite
    cases finite
  | zero sign =>
    cases sign with
    | positive => exact .inl (.zero unpacked)
    | negative =>
      refine absurd ?_ other
      rw [eq_pack_of_unpack unpacked]
      decide +kernel
  | finite sign mantissa exponent positive =>
    cases sign with
    | positive => exact .inl (.finite unpacked)
    | negative => exact .inr ⟨mantissa, exponent, positive, rfl⟩

section Negative

variable {x : Float} {mantissa : Nat} {exponent : Int} {positive : 0 < mantissa}

private theorem unpack_neg (unpacked : x.toModel.unpack = .finite .negative mantissa exponent positive) :
    (-x).toModel.unpack = .finite .positive mantissa exponent positive := by
  change (Float.Model.pack x.toModel.unpack.neg).unpack = _
  rw [unpacked]
  exact unpack_pack (canonical_of_unpack unpacked) .positive

private theorem zero_sub_neg (unpacked : x.toModel.unpack = .finite .negative mantissa exponent positive) : 0 - -x = x := by
  have none : (0 : Float).toModel.unpack = .zero .positive := rfl
  change Float.ofModel (.pack (UnpackedFloat.sub Format.binary64 (0 : Float).toModel.unpack (-x).toModel.unpack)) = x
  rw [none, unpack_neg unpacked]
  exact (eq_pack_of_unpack unpacked).symm

private theorem lt_zero (unpacked : x.toModel.unpack = .finite .negative mantissa exponent positive) : x < 0 := by
  have none : (0 : Float).toModel.unpack = .zero .positive := rfl
  have less : x.toModel < (0 : Float).toModel := by
    change (x.toModel.unpack.compare (0 : Float).toModel.unpack == some .lt) = true
    rw [unpacked, none]
    rfl
  exact decide_eq_true less

private theorem chars_negative (unpacked : x.toModel.unpack = .finite .negative mantissa exponent positive) :
    Number.chars x = '-' :: Number.chars (-x) := by
  rw [Number.chars, unpacked, Number.chars, unpack_neg unpacked]

end Negative

def Unsigned : UnpackedFloat → Prop
  | .notANumber => True
  | .infinity sign | .zero sign | .finite sign .. => sign = .positive

theorem Unsigned.pack {u : UnpackedFloat} (unsigned : Unsigned u) :
    unpackSign (UnpackedFloat.pack Format.binary64 u) = 0#1 := by
  cases u with
  | notANumber => exact unpackSign_packComponents .positive _ _
  | infinity sign | zero sign =>
    cases unsigned
    exact unpackSign_packComponents .positive _ _
  | finite sign mantissa exponent positive =>
    cases unsigned
    rw [UnpackedFloat.pack]
    split
    · exact unpackSign_packComponents .positive _ _
    · split
      · exact unpackSign_packComponents .positive _ _
      · exact unpackSign_packComponents .positive _ _

private theorem unsigned_unpack {bits : BitVec Format.binary64.numBits} (clear : unpackSign bits = 0#1) :
    Unsigned (unpack Format.binary64 bits) := by
  have sign : Sign.ofBitVec (unpackSign bits) = .positive := by rw [clear]; rfl
  rw [unpack]
  split
  · split
    · exact sign
    · trivial
  · split
    · split <;> exact sign
    · exact sign

private theorem plain_of_unsigned {x : Float} (unsigned : Unsigned x.toModel.unpack) (finite : x.isFinite = true) :
    Plain x := by
  have finite : x.toModel.unpack.isFinite = true := finite
  cases unpacked : x.toModel.unpack with
  | notANumber | infinity sign =>
    rw [unpacked] at finite
    cases finite
  | zero sign =>
    rw [unpacked] at unsigned
    cases unsigned
    exact .zero unpacked
  | finite sign mantissa exponent positive =>
    rw [unpacked] at unsigned
    cases unsigned
    exact .finite unpacked

private theorem plain_of_pack {u : UnpackedFloat} (unsigned : Unsigned u) (finite : (Float.ofModel (.pack u)).isFinite = true) :
    Plain (.ofModel (.pack u)) := plain_of_unsigned (unsigned_unpack unsigned.pack) finite

private theorem unpackSign_eq (bits : BitVec Format.binary64.numBits) : unpackSign bits = BitVec.ofBool (BitVec.msb bits) := by
  apply BitVec.eq_of_getLsbD_eq
  intro i small
  have zero : i = 0 := Nat.lt_one_iff.mp small
  subst zero
  simp [unpackSign, BitVec.msb_eq_getLsbD_last]

theorem Plain.sign_clear {x : Float} (plain : Plain x) : x.toBits.toBitVec.msb = false := by
  have unpacked : x.toModel.unpack = unpack Format.binary64 x.toBits.toBitVec := rfl
  cases set_ : x.toBits.toBitVec.msb with
  | false => rfl
  | true =>
    have sign : Sign.ofBitVec (@unpackSign Format.binary64 x.toBits.toBitVec) = .negative := by
      rw [unpackSign_eq]
      exact congrArg (fun bit => Sign.ofBitVec (BitVec.ofBool bit)) set_
    rw [unpack] at unpacked
    simp only [sign] at unpacked
    cases plain with
    | zero positive | finite positive =>
      rw [positive] at unpacked
      split at unpacked
      · split at unpacked <;> cases unpacked
      · split at unpacked
        · split at unpacked <;> cases unpacked
        · cases unpacked

/-- The plain doubles are the finite ones whose sign bit is clear. -/
theorem plain_iff {x : Float} : Plain x ↔ x.isFinite = true ∧ x.toBits.toBitVec.msb = false := by
  constructor
  · intro plain
    exact ⟨plain.isFinite, plain.sign_clear⟩
  · rintro ⟨finite, clear⟩
    refine plain_of_unsigned (unsigned_unpack ?_) finite
    rw [unpackSign_eq]
    exact congrArg BitVec.ofBool clear

private theorem unpack_of_sign {x : Float} (finite : x.isFinite = true) (other : x ≠ -0) (sign : x.toBits.toBitVec.msb = true) :
    ∃ mantissa exponent positive, x.toModel.unpack = .finite .negative mantissa exponent positive := by
  rcases plain_or_negative finite other with plain | negative
  · cases plain.sign_clear.symm.trans sign
  · exact negative

theorem lt_zero_of_sign {x : Float} (finite : x.isFinite = true) (other : x ≠ -0) (sign : x.toBits.toBitVec.msb = true) :
    x < 0 := by
  obtain ⟨mantissa, exponent, positive, unpacked⟩ := unpack_of_sign finite other sign
  exact lt_zero unpacked

theorem zero_sub_neg_of_sign {x : Float} (finite : x.isFinite = true) (other : x ≠ -0) (sign : x.toBits.toBitVec.msb = true) :
    0 - -x = x := by
  obtain ⟨mantissa, exponent, positive, unpacked⟩ := unpack_of_sign finite other sign
  exact zero_sub_neg unpacked

/-- A finite double whose sign bit is set is written as the sign and what is plain without it. -/
theorem plain_neg {x : Float} (finite : x.isFinite = true) (sign : x.toBits.toBitVec.msb = true) :
    Plain (-x) ∧ Number.chars x = '-' :: Number.chars (-x) := by
  by_cases zero : x = -0
  · subst zero
    exact ⟨.zero rfl, by decide +kernel⟩
  · obtain ⟨mantissa, exponent, positive, unpacked⟩ := unpack_of_sign finite zero sign
    exact ⟨.finite (unpack_neg unpacked), chars_negative unpacked⟩

theorem Plain.not_negative {x : Float} (plain : Plain x) : ¬ x < 0 := by
  have none : (0 : Float).toModel.unpack = .zero .positive := rfl
  intro less
  have less : (x.toModel.unpack.compare (0 : Float).toModel.unpack == some .lt) = true := of_decide_eq_true less
  rw [none] at less
  cases plain with
  | zero unpacked | finite unpacked =>
    rw [unpacked] at less
    cases less

private theorem unsigned_round (mantissa : Nat) (exponent : Int) (accuracy : Accuracy) :
    Unsigned (roundWithAccuracy Format.binary64 .positive mantissa exponent accuracy) := by
  simp only [roundWithAccuracy]
  split <;> rfl

private theorem Unsigned.mul {u v : UnpackedFloat} (left : Unsigned u) (right : Unsigned v) :
    Unsigned (UnpackedFloat.mul Format.binary64 u v) := by
  cases u <;> cases v <;> cases left <;> cases right <;> first | trivial | rfl | exact unsigned_round ..

private theorem Unsigned.div {u v : UnpackedFloat} (left : Unsigned u) (right : Unsigned v) :
    Unsigned (UnpackedFloat.div Format.binary64 u v) := by
  cases u <;> cases v <;> cases left <;> cases right <;> first | trivial | rfl | exact unsigned_round ..

private theorem unsigned_ofUInt64 (n : UInt64) : Unsigned n.toFloat.toModel.unpack := by
  refine unsigned_unpack (Unsigned.pack ?_)
  simp only [UnpackedFloat.ofUInt64, UnpackedFloat.ofNat, UnpackedFloat.ofInt, UnpackedFloat.normalize]
  split
  · next order =>
    have less := Int.compare_eq_lt.mp order
    omega
  · rfl
  · exact unsigned_round ..

private theorem unsigned_ofScientific (n : Nat) (e : Int) : Unsigned (UnpackedFloat.ofScientific Format.binary64 n e) := by
  rw [UnpackedFloat.ofScientific]
  split
  · rfl
  · split
    · rfl
    · split
      · rfl
      · split
        · exact unsigned_round ..
        · exact unsigned_round ..

private theorem plain_of_ofScientific {n e : Nat} {small : Bool} (finite : (Float.ofScientific n small e).isFinite = true) :
    Plain (Float.ofScientific n small e) := by
  unfold Float.ofScientific at finite ⊢
  revert finite
  split
  · next bound =>
    have within : e < Float.exactlyRepresentablePowersOfTen.size := Nat.lt_succ_of_le bound.2
    obtain ⟨power, positive, above, unpacked, -⟩ := unpack_powerOfTen within
    have unsigned : Unsigned Float.exactlyRepresentablePowersOfTen[e].toModel.unpack := by
      rw [unpacked]
      rfl
    cases small with
    | false => exact plain_of_pack ((unsigned_ofUInt64 n.toUInt64).mul unsigned)
    | true => exact plain_of_pack ((unsigned_ofUInt64 n.toUInt64).div unsigned)
  · exact plain_of_pack (unsigned_ofScientific n _)

theorem plain_of_numeral {numeral : Numeral} (finite : numeral.toFloat.isFinite = true) : Plain numeral.toFloat := by
  unfold Numeral.toFloat at finite ⊢
  generalize numeral.exponent - numeral.places.length = exponent at finite ⊢
  cases exponent <;> exact plain_of_ofScientific finite

/-- The text of a double without a sign is a numeral that reads back as the double. -/
theorem chars_readBack {x : Float} (plain : Plain x) :
    ∃ numeral, Grammar.IsNumber numeral ∧ numeral.chars = Number.chars x ∧ numeral.toFloat = x := by
  cases plain with
  | zero unpacked =>
    refine ⟨⟨['0'], [], []⟩, ⟨.whole ⟨nofun, List.forall_mem_singleton.mpr rfl⟩, .absent⟩, ?_, ?_⟩
    · rw [Number.chars, unpacked]
      rfl
    · rw [eq_pack_of_unpack unpacked]
      decide +kernel
  | finite unpacked =>
    refine ⟨numeralOf (Decimal.shortest x), numeralOf_valid _, ?_, ?_⟩
    · rw [numeralOf_chars, Number.chars, unpacked]
    · rw [numeralOf_toFloat, shortest_toFloat unpacked]

end Formula.Doubles
