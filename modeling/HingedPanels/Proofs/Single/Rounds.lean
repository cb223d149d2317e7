import HingedPanels.Proofs.Single.Canonical
import HingedPanels.Proofs.Single.Residue

/-!
The rounding step that every operation of single precision ends with, as rounding of the exact result.
-/

namespace HingedPanels.Single

open Float.Model (Format UnpackedFloat totalExponent)
open Float.Model.UnpackedFloat (Sign Accuracy ExtendedMantissa shiftToExponent shiftToTargetExponent
  roundWithAccuracy decreaseExponent round normalize)

/-- The number `u` is the rounding of `x`, before a number that is too large becomes infinite. -/
structure Rounds (u : UnpackedFloat) (x : ℝ) : Prop where
  finite : u.isFinite = true
  canonical : Canonical u
  real_eq : real u = rounded x

theorem targetExponent_eq (total : ℤ) : Format.binary32.targetExponent total = max (total - 24) (-149) := rfl

theorem log_mul_zpow {z : ℝ} (positive : 0 < z) (e : ℤ) : Int.log 2 (z * 2 ^ e) = Int.log 2 z + e := by
  have shifted : 0 < z * 2 ^ e := by positivity
  apply eq_of_forall_le_iff
  intro k
  have split : ((2 : ℕ) : ℝ) ^ k = ((2 : ℕ) : ℝ) ^ (k - e) * 2 ^ e := by
    rw [Nat.cast_ofNat, ← zpow_add₀ two_ne_zero, sub_add_cancel]
  rw [← Int.zpow_le_iff_le_log one_lt_two shifted, split, mul_le_mul_iff_left₀ (by positivity),
    Int.zpow_le_iff_le_log one_lt_two positive]
  omega

theorem targetExponent_eq_spacing {m : ℕ} {e : ℤ} {z : ℝ} (positive : 0 < z) (floor : (m : ℤ) = ⌊z⌋)
    (full : 0 < m ∨ e ≤ -149) :
    Format.binary32.targetExponent (totalExponent m e) = spacing (z * 2 ^ e) := by
  have shifted : 0 < z * 2 ^ e := by positivity
  rw [targetExponent_eq, spacing, abs_of_pos shifted, log_mul_zpow positive, totalExponent]
  by_cases some_whole : 0 < m
  · have large : 1 ≤ z := by
      have whole : (1 : ℤ) ≤ ⌊z⌋ := by omega
      exact_mod_cast Int.le_floor.mp whole
    have floor' : ⌊z⌋₊ = m := by
      rw [Nat.floor_eq_iff positive.le]
      have bounds := Int.floor_eq_iff.mp floor.symm
      exact_mod_cast bounds
    rw [Int.log_of_one_le_right 2 large, floor', ← Nat.log2_eq_log_two]
    congr 1
    ring
  · have none : m = 0 := Nat.eq_zero_of_not_pos some_whole
    have low := full.resolve_left some_whole
    have small : z < 1 := by
      rw [none] at floor
      exact Int.floor_eq_zero_iff.mp floor.symm |>.2
    have log : Int.log 2 z < 0 := by
      rw [← Int.lt_zpow_iff_log_lt one_lt_two positive]
      simpa using small
    rw [none, Nat.log2_zero, max_eq_right, max_eq_right] <;> push_cast <;> omega

/-- Rounding up to a power of two may leave a mantissa that is one place too long. Moving it by that place
loses nothing. -/
theorem shiftToTargetExponent_spec {r : ℕ} {place : ℤ} (short : r ≤ 2 ^ 24) (least : -149 ≤ place)
    (full : 2 ^ 23 ≤ r ∨ place = -149) :
    ∃ m e, shiftToTargetExponent Format.binary32 r place .exact = (⟨m, false, false⟩, e) ∧ Fits m e ∧
      (m : ℝ) * 2 ^ e = r * 2 ^ place := by
  rcases short.lt_or_eq with short | rfl
  · have size : r.log2 ≤ 23 := by
      by_cases none : r = 0
      · simp [none]
      · exact Nat.le_of_lt_succ ((Nat.log2_lt none).mpr short)
    have stay : (max ((r.log2 : ℤ) + 1 + place - 24) (-149) - place).toNat = 0 := by omega
    refine ⟨r, place, ?_, ⟨short, least, full⟩, rfl⟩
    rw [shiftToTargetExponent, shiftToExponent, targetExponent_eq, totalExponent, stay, Nat.cast_zero, add_zero]
    rfl
  · refine ⟨2 ^ 23, place + 1, ?_, ⟨by norm_num, by omega, .inl le_rfl⟩, ?_⟩
    · have step : (max (((2 ^ 24 : ℕ).log2 : ℤ) + 1 + place - 24) (-149) - place).toNat = 1 := by
        rw [Nat.log2_two_pow]
        omega
      rw [shiftToTargetExponent, shiftToExponent, targetExponent_eq, totalExponent, step, Nat.cast_one]
      rfl
    · rw [zpow_add_one₀ two_ne_zero]
      push_cast
      ring

theorem le_least_of_lt_one {z : ℝ} {e : ℤ} (positive : 0 < z) (small : z < 1)
    (fine : e ≤ spacing (z * 2 ^ e)) : e ≤ -149 := by
  have shifted : 0 < z * 2 ^ e := by positivity
  have log : Int.log 2 z < 0 := by
    rw [← Int.lt_zpow_iff_log_lt one_lt_two positive]
    simpa using small
  rw [spacing, abs_of_pos shifted, log_mul_zpow positive] at fine
  omega

theorem roundWithAccuracy_spec {m : ℕ} {e : ℤ} {accuracy : Accuracy} {z : ℝ}
    (stands : StandsFor (.ofMantissaAndAccuracy m accuracy) z) (positive : 0 < z)
    (fine : e ≤ spacing (z * 2 ^ e)) (sign : Sign) :
    Rounds (roundWithAccuracy Format.binary32 sign m e accuracy) (factor sign * (z * 2 ^ e)) := by
  have floor : (m : ℤ) = ⌊z⌋ := by
    have floor := stands.mantissa_eq
    rcases accuracy with _ | _ | _ | _ <;> exact floor
  have full : 0 < m ∨ e ≤ -149 := by
    rcases Nat.eq_zero_or_pos m with none | some_whole
    · rw [none] at floor
      exact .inr (le_least_of_lt_one positive (Int.floor_eq_zero_iff.mp floor.symm).2 fine)
    · exact .inl some_whole
  obtain ⟨k, at_place⟩ := Int.le.dest fine
  have first : shiftToTargetExponent Format.binary32 m e accuracy =
      (ExtendedMantissa.ofMantissaAndAccuracy m accuracy >>> k, spacing (z * 2 ^ e)) := by
    rw [shiftToTargetExponent, shiftToExponent, targetExponent_eq_spacing positive floor full, ← at_place,
      add_sub_cancel_left, Int.toNat_natCast]
  have shifted := stands.shiftRight k
  have scaled : z / 2 ^ k = z * 2 ^ e / 2 ^ spacing (z * 2 ^ e) := by
    rw [← at_place, zpow_add₀ two_ne_zero, zpow_natCast]
    field_simp
  rw [scaled] at shifted
  generalize at_r : (ExtendedMantissa.ofMantissaAndAccuracy m accuracy >>> k).roundedMantissa = r
  have nearest : (r : ℤ) = halfEven (z * 2 ^ e / 2 ^ spacing (z * 2 ^ e)) := by
    rw [← at_r]
    exact shifted.roundedMantissa_eq
  obtain ⟨short, long⟩ := halfEven_scaled_bounds (mul_pos positive (by positivity : (0 : ℝ) < 2 ^ e))
  rw [← nearest] at short long
  obtain ⟨m', e', second, fits, same⟩ :=
    shiftToTargetExponent_spec (by exact_mod_cast short) (least_le_spacing _) (by exact_mod_cast long)
  have whole : (m' : ℝ) * 2 ^ e' = rounded (z * 2 ^ e) := by
    have cast : (r : ℝ) = halfEven (z * 2 ^ e / 2 ^ spacing (z * 2 ^ e)) := by exact_mod_cast nearest
    rw [same, cast, rounded]
  rw [roundWithAccuracy, first]
  dsimp only
  rw [at_r, second]
  dsimp only
  split
  case isTrue none =>
    refine ⟨rfl, trivial, ?_⟩
    rw [real, rounded_factor_mul, ← whole, none, Nat.cast_zero, zero_mul, mul_zero]
  case isFalse =>
    refine ⟨rfl, fits, ?_⟩
    rw [real, rounded_factor_mul, ← whole]

end HingedPanels.Single
