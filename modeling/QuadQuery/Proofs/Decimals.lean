import Mathlib
import QuadQuery.Term

/-!
# Decimals by value

The canonical form of a decimal is the same for all ways of writing its value, and only for them
(`Decimal.canonical_eq_iff`). So terms are the same exactly if they are equal, decimals taken by
value (`Term.same_iff_alike`).
-/

namespace QuadQuery

namespace Decimal

/-- The number that a decimal stands for. -/
def value (d : Decimal) : ℚ :=
  d.digits * (10 : ℚ) ^ (-d.scale)

/-- Factors of ten that leave the digits lower the scale, until no factor is left. -/
theorem dropZeros_spec (bound n : Nat) (scale : Int) (pos : n ≠ 0) (enough : n < 10 ^ bound) :
    ∃ k : Nat, n = (dropZeros bound n scale).1 * 10 ^ k ∧
      (dropZeros bound n scale).2 = scale - k ∧ ¬ 10 ∣ (dropZeros bound n scale).1 := by
  induction bound generalizing n scale with
  | zero =>
    rw [pow_zero] at enough
    omega
  | succ bound ih =>
    unfold dropZeros
    split
    · next zero =>
      have split : n = n / 10 * 10 := by omega
      have fewer : n / 10 < 10 ^ bound := by
        rw [pow_succ] at enough
        omega
      obtain ⟨k, digits, places, last⟩ := ih (n / 10) (scale - 1) (by omega) fewer
      refine ⟨k + 1, ?_, ?_, last⟩
      · calc n = n / 10 * 10 := split
          _ = (dropZeros bound (n / 10) (scale - 1)).1 * 10 ^ k * 10 := by rw [← digits]
          _ = (dropZeros bound (n / 10) (scale - 1)).1 * 10 ^ (k + 1) := by
            rw [pow_succ, mul_assoc]
      · rw [places]
        push_cast
        omega
    · next last =>
      exact ⟨0, by simp, by simp, fun divides => last (Nat.mod_eq_zero_of_dvd divides)⟩

/-- What the canonical form takes out of the digits it takes out of the scale. -/
theorem canonical_spec {d : Decimal} (pos : d.digits ≠ 0) : ∃ k : Nat,
    d.digits = d.canonical.digits * 10 ^ k ∧ d.canonical.scale = d.scale - k ∧
      ¬ (10 : Int) ∣ d.canonical.digits := by
  have enough : d.digits.natAbs < 10 ^ d.digits.natAbs := Nat.lt_pow_self (by omega)
  obtain ⟨k, digits, places, last⟩ :=
    dropZeros_spec d.digits.natAbs d.digits.natAbs d.scale (by omega) enough
  have form : d.canonical = ⟨d.digits.sign * (dropZeros d.digits.natAbs d.digits.natAbs d.scale).1,
      (dropZeros d.digits.natAbs d.digits.natAbs d.scale).2⟩ := by
    rw [canonical, if_neg pos]
  rw [form]
  refine ⟨k, ?_, places, fun divides => last ?_⟩
  · calc d.digits = d.digits.sign * (d.digits.natAbs : Int) := (Int.sign_mul_natAbs _).symm
      _ = _ := by
        conv_lhs => rw [digits]
        push_cast
        ring
  · rw [← Int.natAbs_dvd_natAbs, Int.natAbs_mul, Int.natAbs_sign_of_ne_zero pos, one_mul] at divides
    exact divides

theorem canonical_of_zero {d : Decimal} (zero : d.digits = 0) : d.canonical = ⟨0, 0⟩ := by
  rw [canonical, if_pos zero]

theorem digits_eq_zero_iff (d : Decimal) : d.digits = 0 ↔ d.value = 0 := by
  simp [value, zpow_ne_zero]

/-- Moving factors of ten between the digits and the scale does not change the value. -/
theorem value_shift (digits : Int) (scale : Int) (k : Nat) :
    (⟨digits * 10 ^ k, scale⟩ : Decimal).value = (⟨digits, scale - k⟩ : Decimal).value := by
  have ten : (10 : ℚ) ≠ 0 := by norm_num
  have places : -(scale - k) = (k : Int) + -scale := by ring
  simp only [value]
  rw [places, zpow_add₀ ten, zpow_natCast]
  push_cast
  ring

/-- The canonical form has the same value. -/
theorem value_canonical (d : Decimal) : d.canonical.value = d.value := by
  by_cases zero : d.digits = 0
  · rw [canonical_of_zero zero, (digits_eq_zero_iff d).1 zero]
    simp [value]
  · obtain ⟨k, digits, places, _⟩ := canonical_spec zero
    calc d.canonical.value = (⟨d.canonical.digits, d.scale - k⟩ : Decimal).value := by rw [← places]
      _ = (⟨d.canonical.digits * 10 ^ k, d.scale⟩ : Decimal).value := (value_shift ..).symm
      _ = d.value := by rw [← digits]

/-- Digits that do not end in a zero have the lowest scale of all that give the value. -/
theorem scale_le_of_value_eq {a b : Decimal} (last : ¬ (10 : Int) ∣ a.digits)
    (same : a.value = b.value) : a.scale ≤ b.scale := by
  by_contra lower
  obtain ⟨k, places⟩ : ∃ k : Nat, b.scale = a.scale - (k + 1 : Nat) :=
    ⟨(a.scale - b.scale - 1).toNat, by omega⟩
  have shifted : a.value = (⟨b.digits * 10 ^ (k + 1), a.scale⟩ : Decimal).value := by
    rw [value_shift, ← places, same]
  have ten : (10 : ℚ) ^ (-a.scale) ≠ 0 := zpow_ne_zero _ (by norm_num)
  have digits : a.digits = b.digits * 10 ^ (k + 1) := by
    exact_mod_cast mul_right_cancel₀ ten shifted
  apply last
  rw [digits, pow_succ]
  exact Dvd.intro_left (b.digits * 10 ^ k) (mul_assoc ..)

/-- Two decimals have one canonical form exactly if they have one value. -/
theorem canonical_eq_iff {a b : Decimal} : a.canonical = b.canonical ↔ a.value = b.value := by
  constructor
  · intro same
    rw [← value_canonical a, same, value_canonical]
  · intro same
    by_cases zero : a.digits = 0
    · have other : b.digits = 0 := by rwa [digits_eq_zero_iff, ← same, ← digits_eq_zero_iff]
      rw [canonical_of_zero zero, canonical_of_zero other]
    · have other : b.digits ≠ 0 := by rwa [ne_eq, digits_eq_zero_iff, ← same, ← digits_eq_zero_iff]
      obtain ⟨_, _, _, lastA⟩ := canonical_spec zero
      obtain ⟨_, _, _, lastB⟩ := canonical_spec other
      have values : a.canonical.value = b.canonical.value := by
        rw [value_canonical, value_canonical, same]
      have scales : a.canonical.scale = b.canonical.scale :=
        le_antisymm (scale_le_of_value_eq lastA values) (scale_le_of_value_eq lastB values.symm)
      have ten : (10 : ℚ) ^ (-b.canonical.scale) ≠ 0 := zpow_ne_zero _ (by norm_num)
      have digits : a.canonical.digits = b.canonical.digits := by
        unfold value at values
        rw [scales] at values
        exact_mod_cast mul_right_cancel₀ ten values
      calc a.canonical = ⟨a.canonical.digits, a.canonical.scale⟩ := rfl
        _ = ⟨b.canonical.digits, b.canonical.scale⟩ := by rw [digits, scales]

end Decimal

namespace Term

/-- The terms are equal, decimals taken by value; an integer and a decimal never are. -/
def Alike : Term → Term → Prop
  | .decimal a, .decimal b => a.value = b.value
  | a, b => a = b

theorem same_iff_alike {a b : Term} : a.same b = true ↔ a.Alike b := by
  rw [same_iff]
  cases a <;> cases b <;> simp [Alike, canonical, Decimal.canonical_eq_iff]

end Term

end QuadQuery
