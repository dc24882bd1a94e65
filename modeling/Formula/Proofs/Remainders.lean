import Formula.Operator
import Formula.Proofs.Doubles

/-! The remainder of two doubles is the remainder of the integers nearest to them, with no
rounding after that. Such an integer has 53 digits in some power of two. The remainder counts
in the smaller of the two powers, and since it is no larger than the dividend and smaller than
the divisor, it has no more digits there, so it is a double however large the quotient is. -/

namespace Formula.Doubles

open Float.Model (Format UnpackedFloat totalExponent)
open Float.Model.UnpackedFloat

def value (x : Float) : ℚ :=
  match x.toModel.unpack with
  | .finite sign mantissa exponent _ => sign.apply mantissa * 2 ^ exponent
  | _ => 0

/-- No integer is nearer to a number, and of two equally near ones it is the one farther from zero. -/
structure IsNearest (x : ℚ) (n : ℤ) : Prop where
  near : |x - n| ≤ 1 / 2
  away : |x - n| = 1 / 2 → |x| < |(n : ℚ)|

/-- Two nearest integers would have the number halfway between them, and one of them is nearer
to zero than it. -/
private theorem IsNearest.unordered {x : ℚ} {m n : ℤ} (first : IsNearest x m) (second : IsNearest x n) : ¬ m < n := by
  intro less
  have apart : (m : ℚ) + 1 ≤ n := by exact_mod_cast less
  obtain ⟨low, high⟩ := abs_le.mp first.near
  obtain ⟨low', high'⟩ := abs_le.mp second.near
  have below : x - m = 1 / 2 := by linarith
  have above : x - n = -(1 / 2) := by linarith
  have farther := first.away (by rw [below, abs_of_nonneg (by norm_num)])
  have farther' := second.away (by rw [above, abs_neg, abs_of_nonneg (by norm_num)])
  rcases le_or_gt 0 m with positive | negative
  · have positive : (0 : ℚ) ≤ m := by exact_mod_cast positive
    rw [abs_of_nonneg positive, abs_of_nonneg (by linarith)] at farther
    linarith
  · have negative : (m : ℚ) + 1 ≤ 0 := by exact_mod_cast negative
    rw [abs_of_nonpos (by linarith), abs_of_nonpos (by linarith)] at farther'
    linarith

theorem IsNearest.eq {x : ℚ} {m n : ℤ} (first : IsNearest x m) (second : IsNearest x n) : m = n :=
  le_antisymm (not_lt.mp (second.unordered first)) (not_lt.mp (first.unordered second))

theorem IsNearest.neg {x : ℚ} {n : ℤ} (nearest : IsNearest x n) : IsNearest (-x) (-n) := by
  have distance : |-x - (-n : ℤ)| = |x - n| := by
    rw [Int.cast_neg, ← abs_neg]
    congr 1
    ring
  constructor
  · rw [distance]
    exact nearest.near
  · rw [distance, Int.cast_neg, abs_neg, abs_neg]
    exact nearest.away

theorem isNearest_of_bounds {x : ℚ} {n : ℕ} (positive : 0 ≤ x) (low : n - 1 / 2 ≤ x) (high : x < n + 1 / 2) :
    IsNearest x n := by
  rw [← Int.cast_natCast] at low high
  constructor
  · rw [abs_le]
    constructor <;> linarith
  · intro tie
    have below : x < (n : ℤ) := by
      by_contra above
      rw [abs_of_nonneg (by linarith)] at tie
      linarith
    rw [abs_of_nonneg positive, abs_of_nonneg (by linarith)]
    exact below

theorem isNearest_nearestNat (mantissa : ℕ) (exponent : ℤ) :
    IsNearest (mantissa * 2 ^ exponent) (nearestNat mantissa exponent : ℕ) := by
  have positive : (0 : ℚ) ≤ mantissa * 2 ^ exponent := by positivity
  cases exponent with
  | ofNat exponent =>
    have whole : (mantissa : ℚ) * 2 ^ (Int.ofNat exponent) = (nearestNat mantissa (.ofNat exponent) : ℕ) := by
      simp [nearestNat]
    rw [whole] at positive ⊢
    exact isNearest_of_bounds positive (by linarith) (by linarith)
  | negSucc exponent =>
    obtain ⟨half, power⟩ : ∃ half, half = 2 ^ exponent := ⟨_, rfl⟩
    have some : 0 < 2 * half := by
      rw [power]
      positivity
    have rounded : nearestNat mantissa (.negSucc exponent) = (mantissa + half) / (2 * half) := by
      rw [power, ← Nat.pow_succ']
      rfl
    have scaled : (mantissa : ℚ) * 2 ^ (Int.negSucc exponent) = mantissa / (2 * half : ℕ) := by
      rw [zpow_negSucc, power, ← Nat.pow_succ']
      push_cast
      exact (div_eq_mul_inv _ _).symm
    rw [rounded]
    rw [scaled] at positive ⊢
    generalize quotient : (mantissa + half) / (2 * half) = n
    have low : n * (2 * half) ≤ mantissa + half := quotient ▸ Nat.div_mul_le_self _ _
    have high : mantissa + half < (n + 1) * (2 * half) := by
      rw [← Nat.div_lt_iff_lt_mul some, quotient]
      exact Nat.lt_succ_self n
    have some : (0 : ℚ) < (2 * half : ℕ) := by exact_mod_cast some
    apply isNearest_of_bounds positive
    · rw [le_div_iff₀ some]
      have low : (n : ℚ) * (2 * half : ℕ) ≤ mantissa + half := by exact_mod_cast low
      push_cast at low ⊢
      linarith
    · rw [div_lt_iff₀ some]
      have high : (mantissa : ℚ) + half < (n + 1) * (2 * half : ℕ) := by exact_mod_cast high
      push_cast at high ⊢
      linarith

/-- At most 53 digits, counted in a power of two that a double can have. -/
def Fits (n : ℕ) : Prop := ∃ digits shift : ℕ, n = digits * 2 ^ shift ∧ digits < 2 ^ 53 ∧ shift ≤ 971

private theorem fits_nearestNat {mantissa : ℕ} {exponent : ℤ} (canonical : Canonical mantissa exponent) :
    Fits (nearestNat mantissa exponent) := by
  have few := canonical.fits
  cases exponent with
  | ofNat exponent => exact ⟨mantissa, exponent, rfl, few, Int.ofNat_le.mp canonical.most⟩
  | negSucc exponent =>
    have halved : nearestNat mantissa (.negSucc exponent) ≤ mantissa := by
      have one : 1 ≤ Nat.pow 2 exponent := Nat.two_pow_pos exponent
      have double : Nat.pow 2 (exponent + 1) = 2 * Nat.pow 2 exponent := Nat.pow_succ'
      apply Nat.le_of_lt_succ
      rw [nearestNat, Nat.div_lt_iff_lt_mul (by omega), double]
      nlinarith [canonical.positive]
    exact ⟨_, 0, (Nat.mul_one _).symm, halved.trans_lt few, Nat.zero_le _⟩

/-- The remainder counts in the smaller of the two powers. -/
theorem Fits.mod {m n : ℕ} (dividend : Fits m) (divisor : Fits n) (nonzero : n ≠ 0) : Fits (m % n) := by
  obtain ⟨digits, shift, rfl, few, small⟩ := dividend
  obtain ⟨digits', shift', rfl, few', small'⟩ := divisor
  rcases Nat.le_total shift shift' with below | above
  · obtain ⟨more, rfl⟩ := Nat.exists_eq_add_of_le' below
    refine ⟨digits % (digits' * 2 ^ more), shift, ?_, (Nat.mod_le _ _).trans_lt few, small⟩
    rw [← Nat.mul_mod_mul_right, Nat.mul_assoc, Nat.pow_add]
  · obtain ⟨more, rfl⟩ := Nat.exists_eq_add_of_le' above
    have some : 0 < digits' := Nat.pos_of_ne_zero (left_ne_zero_of_mul nonzero)
    refine ⟨digits * 2 ^ more % digits', shift', ?_, (Nat.mod_lt _ some).trans few', small'⟩
    rw [← Nat.mul_mod_mul_right, Nat.mul_assoc, Nat.pow_add]

private theorem round_digits {digits shift : ℕ} (some : 0 < digits) (few : digits < 2 ^ 53) (small : shift ≤ 971)
    (sign : Sign) :
    ∃ (up : ℕ) (canonical : Canonical (digits * 2 ^ up) (shift - up)),
      UnpackedFloat.round Format.binary64 sign (digits * 2 ^ shift) 0 =
        .finite sign (digits * 2 ^ up) (shift - up) canonical.positive := by
  have high : digits.log2 < 53 := (Nat.log2_lt (Nat.ne_of_gt some)).mpr few
  have whole := canonical_ofNat some few
  obtain ⟨up, moved⟩ : ∃ up, 52 - digits.log2 = up := ⟨_, rfl⟩
  rw [moved] at whole
  have canonical : Canonical (digits * 2 ^ up) (shift - up) :=
    ⟨whole.positive, whole.fits, by omega, by omega, .inl (whole.normal.resolve_right (by omega))⟩
  have target : Format.binary64.targetExponent (totalExponent (digits * 2 ^ shift) 0) = shift - up := by
    simp only [Format.targetExponent, totalExponent, Format.mantissaBits, Format.minExponent, log2_shifted some]
    omega
  obtain ⟨down, amount⟩ : ∃ down, (0 - (shift - up : ℤ)).toNat = down := ⟨_, rfl⟩
  have zeros : digits * 2 ^ shift * 2 ^ down = digits * 2 ^ up * 2 ^ (shift + down - up) := by
    rw [Nat.mul_assoc, Nat.mul_assoc, ← Nat.pow_add, ← Nat.pow_add]
    congr 2
    omega
  have place : (0 - down : ℤ) = shift - up - (shift + down - up : ℕ) := by omega
  refine ⟨up, canonical, ?_⟩
  simp only [UnpackedFloat.round, target, decreaseExponent, amount, Nat.shiftLeft_eq, zeros, place]
  exact round_shifted canonical sign _

theorem integral_exact {n : ℕ} (fits : Fits n) (sign : Sign) :
    (integral sign n).isFinite = true ∧ value (integral sign n) = sign.apply n := by
  obtain ⟨digits, shift, rfl, few, small⟩ := fits
  rcases Nat.eq_zero_or_pos digits with rfl | some
  · rw [Nat.zero_mul]
    cases sign <;> exact ⟨rfl, rfl⟩
  obtain ⟨up, canonical, rounded⟩ := round_digits some few small sign
  have unpacked : (integral sign (digits * 2 ^ shift)).toModel.unpack =
      .finite sign (digits * 2 ^ up) (shift - up) canonical.positive := by
    have positive : 0 < digits * 2 ^ shift := Nat.mul_pos some (Nat.two_pow_pos shift)
    obtain ⟨n, same⟩ := Nat.exists_eq_succ_of_ne_zero (Nat.ne_of_gt positive)
    rw [same] at rounded ⊢
    rw [← unpack_pack canonical sign, ← rounded]
    rfl
  constructor
  · change (integral sign (digits * 2 ^ shift)).toModel.unpack.isFinite = true
    rw [unpacked]
    rfl
  · have exact : ((digits * 2 ^ up : ℕ) : ℚ) * 2 ^ (shift - up : ℤ) = (digits * 2 ^ shift : ℕ) := by
      rw [zpow_sub₀ two_ne_zero, zpow_natCast, zpow_natCast]
      push_cast
      field_simp
    rw [value, unpacked]
    cases sign with
    | positive => exact_mod_cast exact
    | negative =>
      have negated := congrArg Neg.neg exact
      rw [← neg_mul] at negated
      exact_mod_cast negated

structure Near (x : Float) (sign : Sign) (n : ℕ) : Prop where
  nearest : IsNearest (value x) (sign.apply n)
  fits : Fits n

private theorem near_of_zero {x : Float} {sign : Sign} (unpacked : x.toModel.unpack = .zero sign) : Near x sign 0 := by
  have zero : sign.apply (0 : ℕ) = (0 : ℕ) := by cases sign <;> rfl
  constructor
  · rw [value, unpacked, zero]
    exact isNearest_of_bounds le_rfl (by norm_num) (by norm_num)
  · exact ⟨0, 0, rfl, by decide, by decide⟩

theorem near_of_finite {x : Float} {sign : Sign} {mantissa : ℕ} {exponent : ℤ} {positive : 0 < mantissa}
    (unpacked : x.toModel.unpack = .finite sign mantissa exponent positive) :
    Near x sign (nearestNat mantissa exponent) := by
  have nearest := isNearest_nearestNat mantissa exponent
  refine ⟨?_, fits_nearestNat (canonical_of_unpack unpacked)⟩
  rw [value, unpacked]
  cases sign with
  | positive => exact nearest
  | negative =>
    have negated := nearest.neg
    rw [← neg_mul] at negated
    simpa [Sign.apply] using negated

private theorem exists_near_dividend {x : Float} (finite : x.isFinite = true) : ∃ sign n, Near x sign n ∧
    ∀ y, remainder x y = remainderBy sign n y.toModel.unpack := by
  have finite : x.toModel.unpack.isFinite = true := finite
  cases unpacked : x.toModel.unpack with
  | notANumber | infinity sign =>
    rw [unpacked] at finite
    cases finite
  | zero sign =>
    refine ⟨sign, 0, near_of_zero unpacked, fun y => ?_⟩
    rw [remainder, unpacked]
  | finite sign mantissa exponent positive =>
    refine ⟨sign, _, near_of_finite unpacked, fun y => ?_⟩
    rw [remainder, unpacked]

private theorem exists_near_divisor {y : Float} (finite : y.isFinite = true) : ∃ sign n, Near y sign n ∧
    ∀ sign' dividend, remainderBy sign' dividend y.toModel.unpack =
      if n = 0 then Number.nan else integral sign' (dividend % n) := by
  have finite : y.toModel.unpack.isFinite = true := finite
  cases unpacked : y.toModel.unpack with
  | notANumber | infinity sign =>
    rw [unpacked] at finite
    cases finite
  | zero sign => exact ⟨sign, 0, near_of_zero unpacked, fun _ _ => rfl⟩
  | finite sign mantissa exponent positive => exact ⟨sign, _, near_of_finite unpacked, fun _ _ => rfl⟩

private theorem apply_tmod (sign sign' : Sign) (m n : ℕ) : (sign.apply m).tmod (sign'.apply n) = sign.apply (m % n : ℕ) := by
  cases sign <;> cases sign' <;> simp only [Sign.apply, Int.tmod_neg, Int.neg_tmod, Int.ofNat_tmod]

private theorem apply_eq_zero {sign : Sign} {n : ℕ} : sign.apply n = 0 ↔ n = 0 := by
  cases sign <;> simp [Sign.apply]

end Formula.Doubles

namespace Formula

open Doubles

/-- The modulo of two finite doubles is exactly the remainder of the truncated division of the
integers nearest to them, however large they are; by zero it is no number. -/
theorem modulo_exact {x y : Float} (finite : x.isFinite = true) (finite' : y.isFinite = true) : ∃ a b : ℤ,
    (∀ n, IsNearest (value x) n ↔ n = a) ∧ (∀ n, IsNearest (value y) n ↔ n = b) ∧
      (b = 0 → (Operator.modulo.apply x y).isNaN = true) ∧
      (b ≠ 0 → ∃ r : ℤ, r = a - b * a.tdiv b ∧ |r| < |b| ∧ (r = 0 ∨ r.sign = a.sign) ∧
        (Operator.modulo.apply x y).isFinite = true ∧ value (Operator.modulo.apply x y) = r) := by
  obtain ⟨sign, m, dividend, same⟩ := exists_near_dividend finite
  obtain ⟨sign', n, divisor, same'⟩ := exists_near_divisor finite'
  have modulo : Operator.modulo.apply x y = if n = 0 then Number.nan else integral sign (m % n) :=
    (same y).trans (same' sign m)
  refine ⟨sign.apply m, sign'.apply n, ?_, ?_, ?_, ?_⟩
  · exact fun other => ⟨fun nearest => nearest.eq dividend.nearest, fun equal => equal ▸ dividend.nearest⟩
  · exact fun other => ⟨fun nearest => nearest.eq divisor.nearest, fun equal => equal ▸ divisor.nearest⟩
  · intro zero
    rw [modulo, if_pos (apply_eq_zero.mp zero)]
    decide
  · intro nonzero
    have some : n ≠ 0 := mt apply_eq_zero.mpr nonzero
    obtain ⟨finite, exact⟩ := integral_exact (dividend.fits.mod divisor.fits some) sign
    refine ⟨_, rfl, ?_, ?_, ?_, ?_⟩
    · rw [← Int.tmod_def, Int.abs_eq_natAbs, Int.abs_eq_natAbs, Int.natAbs_tmod]
      exact_mod_cast Nat.mod_lt _ (Int.natAbs_pos.mpr nonzero)
    · rw [← Int.tmod_def]
      by_cases divides : sign'.apply n ∣ sign.apply m
      · exact .inl (Int.tmod_eq_zero_of_dvd divides)
      · exact .inr ((Int.sign_tmod _ _).trans (if_neg divides))
    · rw [modulo, if_neg some]
      exact finite
    · rw [modulo, if_neg some, exact, ← Int.tmod_def, apply_tmod]

/-- The largest double, negated, by a half that is rounded away from zero. -/
theorem modulo_exact_largest :
    let largest : Float := .ofModel (.pack (.finite .negative (2 ^ 53 - 1) 971 (by decide)))
    largest.isFinite = true ∧ (2.5 : Float).isFinite = true ∧ value (Operator.modulo.apply largest 2.5) = -2 := by
  intro largest
  have canonical : Canonical (2 ^ 53 - 1) 971 := ⟨by decide, by decide, by decide, by decide, .inl (by decide)⟩
  have unpacked : largest.toModel.unpack = .finite .negative (2 ^ 53 - 1) 971 (by decide) :=
    unpack_pack canonical .negative
  have unpacked' : (2.5 : Float).toModel.unpack = .finite .positive (5 * 2 ^ 50) (-51) (by decide) := rfl
  have finite : largest.isFinite = true := congrArg Float.Model.UnpackedFloat.isFinite unpacked
  have finite' : (2.5 : Float).isFinite = true := rfl
  obtain ⟨a, b, dividend, divisor, -, exact⟩ := modulo_exact finite finite'
  have first := (dividend _).mp (near_of_finite unpacked).nearest
  have second := (divisor _).mp (near_of_finite unpacked').nearest
  subst first second
  obtain ⟨r, same, -, -, -, result⟩ := exact (by decide)
  have two : r = -2 := same.trans (by decide +kernel)
  refine ⟨finite, finite', ?_⟩
  rw [result, two]
  norm_num

end Formula
