import QuadQuery.Proofs.Decimals

/-!
# Decimals in order

Decimals are compared without bringing them to a common scale unless their leading digits stand in
one place. The order that results is the order of the values (`Decimal.compare_eq`), and so it does
not depend on how the values are written.
-/

namespace QuadQuery

namespace Decimal

variable {a b : Decimal}

/-- The size of the value. -/
def magnitude (d : Decimal) : ℚ :=
  d.digits.natAbs * (10 : ℚ) ^ (-d.scale)

theorem digitCount_pos (n : Nat) : 0 < digitCount n :=
  Nat.length_toDigits_pos

theorem lt_pow_digitCount (n : Nat) : n < 10 ^ digitCount n :=
  (Nat.length_toDigits_le_iff (by decide) (digitCount_pos n)).1 (Nat.le_refl _)

theorem pow_digitCount_le {n : Nat} (pos : n ≠ 0) : 10 ^ (digitCount n - 1) ≤ n := by
  by_contra less
  cases count : digitCount n - 1 with
  | zero =>
    rw [count, pow_zero] at less
    omega
  | succ k =>
    rw [count] at less
    have fewer : digitCount n ≤ k + 1 :=
      (Nat.length_toDigits_le_iff (by decide) (Nat.succ_pos k)).2 (Nat.lt_of_not_le less)
    omega

/-- The place of the leading digit bounds the size from above. -/
theorem magnitude_lt (d : Decimal) :
    d.magnitude < (10 : ℚ) ^ ((digitCount d.digits.natAbs : Int) - d.scale) := by
  have ten : (10 : ℚ) ≠ 0 := by norm_num
  have digits : (d.digits.natAbs : ℚ) < (10 : ℚ) ^ (digitCount d.digits.natAbs : Int) := by
    rw [zpow_natCast]
    exact_mod_cast lt_pow_digitCount d.digits.natAbs
  have places : (0 : ℚ) < (10 : ℚ) ^ (-d.scale) := zpow_pos (by norm_num) _
  rw [magnitude, sub_eq_add_neg, zpow_add₀ ten]
  exact mul_lt_mul_of_pos_right digits places

/-- The place of the leading digit bounds the size from below. -/
theorem le_magnitude {d : Decimal} (pos : d.digits ≠ 0) :
    (10 : ℚ) ^ ((digitCount d.digits.natAbs : Int) - d.scale - 1) ≤ d.magnitude := by
  have ten : (10 : ℚ) ≠ 0 := by norm_num
  have count := digitCount_pos d.digits.natAbs
  have digits : (10 : ℚ) ^ ((digitCount d.digits.natAbs - 1 : Nat) : Int) ≤ d.digits.natAbs := by
    rw [zpow_natCast]
    exact_mod_cast pow_digitCount_le (Int.natAbs_ne_zero.2 pos)
  have split : (digitCount d.digits.natAbs : Int) - d.scale - 1
      = ((digitCount d.digits.natAbs - 1 : Nat) : Int) + -d.scale := by omega
  rw [magnitude, split, zpow_add₀ ten]
  exact mul_le_mul_of_nonneg_right digits (zpow_nonneg (by norm_num) _)

/-- A leading digit in a lower place makes a smaller number. -/
theorem magnitude_lt_of_lower (pos : b.digits ≠ 0)
    (lower : (digitCount a.digits.natAbs : Int) - a.scale < digitCount b.digits.natAbs - b.scale) :
    a.magnitude < b.magnitude := by
  calc a.magnitude < (10 : ℚ) ^ ((digitCount a.digits.natAbs : Int) - a.scale) := magnitude_lt a
    _ ≤ (10 : ℚ) ^ ((digitCount b.digits.natAbs : Int) - b.scale - 1) :=
      zpow_le_zpow_right₀ (by norm_num) (by omega)
    _ ≤ b.magnitude := le_magnitude pos

/-- The digits brought to a scale that is not smaller. -/
theorem magnitude_mul_pow (d : Decimal) {top : Int} (le : d.scale ≤ top) :
    d.magnitude * (10 : ℚ) ^ top
      = ((d.digits.natAbs * Nat.pow 10 (top - d.scale).toNat : Nat) : ℚ) := by
  have ten : (10 : ℚ) ≠ 0 := by norm_num
  have places : -d.scale + top = ((top - d.scale).toNat : Int) := by omega
  rw [magnitude, mul_assoc, ← zpow_add₀ ten, places, zpow_natCast, Nat.pow_eq]
  push_cast
  rfl

theorem compareMagnitude_eq (posA : a.digits ≠ 0) (posB : b.digits ≠ 0) :
    compareMagnitude a b = Ord.compare a.magnitude b.magnitude := by
  unfold compareMagnitude
  dsimp only
  rcases lt_trichotomy ((digitCount a.digits.natAbs : Int) - a.scale)
    (digitCount b.digits.natAbs - b.scale) with lower | same | higher
  · rw [compare_lt_iff_lt.2 lower, compare_lt_iff_lt.2 (magnitude_lt_of_lower posB lower)]
    rfl
  · rw [same, compare_eq_iff_eq.2 rfl, Ordering.eq_then]
    -- The leading digits are in one place, and both sides are brought to the larger scale.
    have places : (0 : ℚ) < (10 : ℚ) ^ (max a.scale b.scale) := zpow_pos (by norm_num) _
    have left := magnitude_mul_pow a (le_max_left a.scale b.scale)
    have right := magnitude_mul_pow b (le_max_right a.scale b.scale)
    rw [← cmp_eq_compare, ← cmp_eq_compare, ← cmp_mul_pos_right places a.magnitude, left, right]
    exact (Nat.strictMono_cast.cmp_map_eq _ _).symm
  · rw [compare_gt_iff_gt.2 higher, compare_gt_iff_gt.2 (magnitude_lt_of_lower posA higher)]
    rfl

theorem value_of_pos (pos : 0 < a.digits) : a.value = a.magnitude := by
  have digits : (a.digits : ℚ) = a.digits.natAbs := by
    rw [← Int.cast_natCast, Int.natAbs_of_nonneg pos.le]
  rw [value, magnitude, digits]

theorem value_of_neg (neg : a.digits < 0) : a.value = -a.magnitude := by
  have digits : (a.digits : ℚ) = -a.digits.natAbs := by
    rw [← Int.cast_natCast, Int.ofNat_natAbs_of_nonpos neg.le, Int.cast_neg, neg_neg]
  rw [value, magnitude, digits, neg_mul]

theorem magnitude_pos (some : a.digits ≠ 0) : 0 < a.magnitude :=
  mul_pos (Nat.cast_pos.2 (Int.natAbs_pos.2 some)) (zpow_pos (by norm_num) _)

/-- The value has the sign of the digits. -/
theorem sign_value (d : Decimal) : SignType.sign d.value = SignType.sign d.digits := by
  rcases lt_trichotomy d.digits 0 with neg | zero | pos
  · rw [value_of_neg neg, sign_neg neg, sign_neg (neg_neg_of_pos (magnitude_pos neg.ne))]
  · rw [zero, (digits_eq_zero_iff d).1 zero, sign_zero, sign_zero]
  · rw [value_of_pos pos, sign_pos pos, sign_pos (magnitude_pos pos.ne')]

/-- Numbers of different signs are ordered as the signs are. -/
theorem compare_of_sign_ne {x y : ℚ} (differ : SignType.sign x ≠ SignType.sign y) :
    Ord.compare x y = Ord.compare (SignType.sign x) (SignType.sign y) := by
  rcases lt_trichotomy x y with less | same | more
  · have signs := (SignType.sign.monotone less.le).lt_of_ne differ
    rw [compare_lt_iff_lt.2 less, compare_lt_iff_lt.2 signs]
  · exact absurd (congrArg _ same) differ
  · have signs := (SignType.sign.monotone more.le).lt_of_ne differ.symm
    rw [compare_gt_iff_gt.2 more, compare_gt_iff_gt.2 signs]

/-- Decimals are ordered by value. -/
theorem compare_eq (a b : Decimal) : a.compare b = Ord.compare a.value b.value := by
  have signs : Ord.compare a.digits.sign b.digits.sign
      = Ord.compare (SignType.sign a.value) (SignType.sign b.value) := by
    rw [sign_value, sign_value]
    rcases lt_trichotomy a.digits 0 with negA | zeroA | posA <;>
      rcases lt_trichotomy b.digits 0 with negB | zeroB | posB <;>
      simp only [*, Int.sign_eq_neg_one_of_neg, Int.sign_eq_one_of_pos, Int.sign_zero, sign_neg,
        sign_pos, sign_zero] <;> decide
  unfold Decimal.compare
  rw [signs]
  by_cases same : SignType.sign a.value = SignType.sign b.value
  · rw [compare_eq_iff_eq.2 same]
    rw [sign_value, sign_value] at same
    rcases lt_trichotomy a.digits 0 with neg | zero | pos
    · have other : b.digits < 0 := sign_eq_neg_one_iff.1 (same.symm.trans (sign_neg neg))
      have flipped : Ord.compare (-a.magnitude) (-b.magnitude)
          = Ord.compare b.magnitude a.magnitude := by
        rw [← cmp_eq_compare, ← cmp_eq_compare]
        exact StrictAnti.cmp_map_eq (fun _ _ => neg_lt_neg) _ _
      simp only [neg.ne, neg.not_gt, if_false]
      rw [compareMagnitude_eq other.ne neg.ne, value_of_neg neg, value_of_neg other, flipped]
    · have other : b.digits = 0 := sign_eq_zero_iff.1 (by rw [← same, zero, sign_zero])
      rw [(digits_eq_zero_iff a).1 zero, (digits_eq_zero_iff b).1 other, if_pos zero,
        compare_eq_iff_eq.2 rfl]
    · have other : 0 < b.digits := sign_eq_one_iff.1 (same.symm.trans (sign_pos pos))
      simp only [pos.ne', pos, if_false, if_true]
      rw [compareMagnitude_eq pos.ne' other.ne', value_of_pos pos, value_of_pos other]
  · have differ : Ord.compare (SignType.sign a.value) (SignType.sign b.value) ≠ .eq :=
      fun equal => same (compare_eq_iff_eq.1 equal)
    rw [compare_of_sign_ne same]
    generalize Ord.compare (SignType.sign a.value) (SignType.sign b.value) = order at differ ⊢
    cases order with
    | eq => exact absurd rfl differ
    | lt | gt => rfl

theorem isZero_iff {d : Decimal} : d.isZero = true ↔ d.value = 0 := by
  rw [← digits_eq_zero_iff, isZero, beq_iff_eq]

end Decimal

end QuadQuery
