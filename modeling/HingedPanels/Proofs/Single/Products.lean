import HingedPanels.Proofs.Single.Arithmetic

namespace HingedPanels.Single

open Float.Model (Format UnpackedFloat totalExponent)
open Float.Model.UnpackedFloat (Sign Accuracy ExtendedMantissa add sub mul neg sqrt sqrtCore)

theorem factor_mul (sign sign' : Sign) : factor (sign * sign') = factor sign * factor sign' := by
  cases sign <;> cases sign'
  · exact (by norm_num : (1 : ℝ) = -1 * -1)
  · exact (by norm_num : (-1 : ℝ) = -1 * 1)
  · exact (by norm_num : (-1 : ℝ) = 1 * -1)
  · exact (by norm_num : (1 : ℝ) = 1 * 1)

theorem log_natCast (m : ℕ) : Int.log 2 (m : ℝ) = m.log2 := by
  rw [Int.log_natCast, Nat.log2_eq_log_two]

theorem Fits.le_spacing_mul {m n : ℕ} {e f : ℤ} (fits : Fits m e) (fits' : Fits n f) (positive : 0 < m)
    (positive' : 0 < n) : e + f ≤ spacing ((m * n : ℕ) * 2 ^ (e + f)) := by
  have product : 0 < m * n := Nat.mul_pos positive positive'
  have size : (0 : ℝ) < (m * n : ℕ) := by exact_mod_cast product
  rw [spacing, abs_of_pos (by positivity), log_mul_zpow size, log_natCast]
  have long {k : ℕ} (full : 2 ^ 23 ≤ k) (below : k ≤ m * n) : 23 ≤ (m * n).log2 :=
    (Nat.le_log2 product.ne').mpr (full.trans below)
  rcases fits.full with full | least
  · have places := long full (Nat.le_mul_of_pos_right m positive')
    omega
  · rcases fits'.full with full | least'
    · have places := long full (Nat.le_mul_of_pos_left n positive)
      omega
    · omega

theorem mul_spec {a b : UnpackedFloat} (finite : a.isFinite = true) (finite' : b.isFinite = true)
    (canonical : Canonical a) (canonical' : Canonical b) :
    Rounds (mul Format.binary32 a b) (real a * real b) := by
  cases a with
  | infinity | notANumber => cases finite
  | zero sign =>
    rw [real, zero_mul]
    cases b with
    | infinity | notANumber => cases finite'
    | zero sign' | finite sign' => exact rounds_zero (sign * sign')
  | finite sign m e positive =>
    cases b with
    | infinity | notANumber => cases finite'
    | zero sign' =>
      rw [real.eq_def (.zero sign'), mul_zero]
      exact rounds_zero (sign * sign')
    | finite sign' n f positive' =>
      have size : (0 : ℝ) < (m * n : ℕ) := by exact_mod_cast Nat.mul_pos positive positive'
      have rounds := roundWithAccuracy_spec (standsFor_exact (m * n)) size
        (canonical.le_spacing_mul canonical' positive positive') (sign * sign')
      rw [factor_mul, zpow_add₀ two_ne_zero, Nat.cast_mul, mul_mul_mul_comm (m : ℝ), mul_mul_mul_comm] at rounds
      exact rounds

theorem real_neg (u : UnpackedFloat) : real u.neg = -real u := by
  cases u with
  | infinity | notANumber | zero => exact neg_zero.symm
  | finite sign m e positive =>
    cases sign with
    | negative => exact (real_positive positive).trans (by rw [real_negative, neg_neg])
    | positive => exact (real_negative positive).trans (by rw [real_positive])

theorem sub_eq_add_neg (a b : UnpackedFloat) :
    sub Format.binary32 a b = add Format.binary32 a b.neg := by
  cases a with
  | notANumber => rfl
  | infinity | zero => cases b <;> rfl
  | finite s m e positive =>
    cases b with
    | notANumber | infinity | zero => rfl
    | finite s' n f positive' =>
      have flip (k : ℤ) : (-s').apply k = -s'.apply k := by
        cases s' with
        | negative => exact (neg_neg k).symm
        | positive => rfl
      simp only [sub, neg, add, flip, Int.sub_eq_add_neg]

theorem cast_sub_sqrt (m : ℕ) :
    ((m - m.sqrt * m.sqrt : ℕ) : ℝ) = Int.fract √(m : ℝ) * (2 * m.sqrt + Int.fract √(m : ℝ)) := by
  have parts : (m.sqrt : ℝ) + Int.fract √(m : ℝ) = √(m : ℝ) := by
    have whole := Int.floor_add_fract √(m : ℝ)
    rwa [Real.floor_real_sqrt_eq_nat_sqrt, Int.cast_natCast] at whole
  have square := Real.mul_self_sqrt (Nat.cast_nonneg (α := ℝ) m)
  rw [← parts] at square
  rw [Nat.cast_sub (Nat.sqrt_le m), Nat.cast_mul]
  linear_combination -square

/-- The rest of a whole root tells how the root goes on. It never goes on by a half. -/
theorem fract_sqrt (m : ℕ) :
    (m - m.sqrt * m.sqrt = 0 ↔ Int.fract √(m : ℝ) = 0) ∧
      (m - m.sqrt * m.sqrt ≤ m.sqrt ↔ 2 * Int.fract √(m : ℝ) < 1) ∧ 2 * Int.fract √(m : ℝ) ≠ 1 := by
  have rest := cast_sub_sqrt m
  have nonneg := Int.fract_nonneg √(m : ℝ)
  have root : (0 : ℝ) ≤ m.sqrt := Nat.cast_nonneg _
  generalize m - m.sqrt * m.sqrt = left at rest ⊢
  generalize Int.fract √(m : ℝ) = f at rest nonneg ⊢
  refine ⟨?_, ?_, ?_⟩
  · rw [← Nat.cast_eq_zero (R := ℝ), rest]
    constructor
    · intro none
      rcases mul_eq_zero.mp none with zero | zero
      · exact zero
      · linarith
    · intro zero
      rw [zero, zero_mul]
  · constructor
    · intro short
      have short : (left : ℝ) ≤ m.sqrt := by exact_mod_cast short
      by_contra long
      nlinarith
    · intro short
      have close : (left : ℝ) < (m.sqrt + 1 : ℕ) := by
        push_cast
        nlinarith
      exact Nat.lt_succ_iff.mp (by exact_mod_cast close)
  · intro half
    have quarter : (4 * left : ℕ) = ((4 * m.sqrt + 1 : ℕ) : ℝ) := by
      push_cast
      rw [rest]
      linear_combination (2 * (2 * (m.sqrt : ℝ) + f) + 1) * half
    have quarter : 4 * left = 4 * m.sqrt + 1 := by exact_mod_cast quarter
    omega

theorem standsFor_sqrt (m : ℕ) :
    StandsFor (.ofMantissaAndAccuracy m.sqrt (if m - m.sqrt * m.sqrt = 0 then .exact
      else .inexact (if m - m.sqrt * m.sqrt ≤ m.sqrt then .lt else .gt))) √(m : ℝ) := by
  obtain ⟨none_iff, short_iff, apart⟩ := fract_sqrt m
  have floor : (m.sqrt : ℤ) = ⌊√(m : ℝ)⌋ := Real.floor_real_sqrt_eq_nat_sqrt.symm
  by_cases none : m - m.sqrt * m.sqrt = 0
  · have zero := none_iff.mp none
    rw [if_pos none]
    exact ⟨floor, by simp [ExtendedMantissa.ofMantissaAndAccuracy, zero],
      by simp [ExtendedMantissa.ofMantissaAndAccuracy, zero]⟩
  · have some_left := mt none_iff.mpr none
    rw [if_neg none]
    by_cases short : m - m.sqrt * m.sqrt ≤ m.sqrt
    · have below := short_iff.mp short
      rw [if_pos short]
      exact ⟨floor, by simp [ExtendedMantissa.ofMantissaAndAccuracy, below],
        by simp [ExtendedMantissa.ofMantissaAndAccuracy, some_left, apart]⟩
    · have above := le_of_not_gt (mt short_iff.mpr short)
      rw [if_neg short]
      exact ⟨floor, by simp [ExtendedMantissa.ofMantissaAndAccuracy, above],
        by simp [ExtendedMantissa.ofMantissaAndAccuracy, some_left, apart]⟩

theorem le_spacing_sqrt {m : ℕ} (positive : 0 < m) (e : ℤ) :
    Format.binary32.targetExponent ((totalExponent m e + 1).ediv 2) ≤ spacing √((m : ℝ) * 2 ^ e) := by
  have size : (0 : ℝ) < m := by exact_mod_cast positive
  have low : (2 : ℝ) ^ (2 * ((m.log2 + e) / 2)) ≤ m * 2 ^ e := by
    have whole : ((2 ^ m.log2 : ℕ) : ℝ) ≤ m := by exact_mod_cast Nat.log2_self_le positive.ne'
    calc
      (2 : ℝ) ^ (2 * ((m.log2 + e) / 2)) ≤ 2 ^ (m.log2 + e) := zpow_le_zpow_right₀ one_le_two (by omega)
      _ = 2 ^ m.log2 * 2 ^ e := by rw [zpow_add₀ two_ne_zero, zpow_natCast]
      _ ≤ m * 2 ^ e := mul_le_mul_of_nonneg_right (by exact_mod_cast whole) (by positivity)
  have root : (2 : ℝ) ^ ((m.log2 + e) / 2) ≤ √((m : ℝ) * 2 ^ e) := by
    rw [Real.le_sqrt' (by positivity), ← zpow_natCast, ← zpow_mul, mul_comm]
    exact low
  have some_root : 0 < √((m : ℝ) * 2 ^ e) := by positivity
  have log := (Int.zpow_le_iff_le_log one_lt_two some_root).mp (by exact_mod_cast root)
  have half : ((m.log2 : ℤ) + 1 + e + 1).ediv 2 = (m.log2 + 1 + e + 1) / 2 := rfl
  rw [targetExponent_eq, spacing, abs_of_pos some_root, totalExponent, half]
  omega

/-- A square root is computed to as many places as its rounding needs. -/
theorem sqrtCore_spec {m : ℕ} (positive : 0 < m) (e : ℤ) :
    ∃ root place accuracy z, sqrtCore Format.binary32 m e = (root, place, accuracy) ∧
      StandsFor (.ofMantissaAndAccuracy root accuracy) z ∧ 0 < z ∧
      z * 2 ^ place = √((m : ℝ) * 2 ^ e) ∧ place ≤ spacing (z * 2 ^ place) := by
  generalize at_place : min (e.ediv 2)
    (Format.binary32.targetExponent ((totalExponent m e + 1).ediv 2)) = place
  have halves : 2 * place ≤ e := by
    have low := at_place.symm.trans_le (min_le_left _ _)
    have half : e.ediv 2 = e / 2 := rfl
    omega
  obtain ⟨k, up⟩ := Int.le.dest halves
  have step : (e - 2 * place).toNat = k := by omega
  have long : ((m <<< k : ℕ) : ℝ) = m * 2 ^ k := by
    rw [Nat.shiftLeft_eq]
    norm_cast
  have size : (0 : ℝ) < m := by exact_mod_cast positive
  have same : √((m <<< k : ℕ) : ℝ) * 2 ^ place = √((m : ℝ) * 2 ^ e) := by
    have split : (m : ℝ) * 2 ^ e = m * 2 ^ k * (2 ^ place * 2 ^ place) := by
      rw [← up, zpow_add₀ two_ne_zero, two_mul, zpow_add₀ two_ne_zero, zpow_natCast]
      ring
    rw [long, split, Real.sqrt_mul (by positivity : (0 : ℝ) ≤ m * 2 ^ k), Real.sqrt_mul_self (by positivity)]
  refine ⟨(m <<< k).sqrt, place, _, √((m <<< k : ℕ) : ℝ), ?_, standsFor_sqrt (m <<< k), ?_, same, ?_⟩
  · rw [sqrtCore, at_place, step]
  · rw [long]
    positivity
  · rw [same]
    exact (at_place.symm.trans_le (min_le_right _ _)).trans (le_spacing_sqrt positive e)

theorem sqrt_spec {a : UnpackedFloat} (finite : a.isFinite = true) (nonneg : 0 ≤ real a) :
    Rounds (sqrt Format.binary32 a) √(real a) := by
  cases a with
  | infinity | notANumber => cases finite
  | zero sign =>
    have nothing := rounds_zero sign
    rwa [← Real.sqrt_zero] at nothing
  | finite sign m e positive =>
    cases sign with
    | negative => exact absurd nonneg (real_lt_zero positive).not_ge
    | positive =>
      obtain ⟨root, place, accuracy, z, core, stands, some_left, same, fine⟩ := sqrtCore_spec positive e
      have rounds := roundWithAccuracy_spec stands some_left fine .positive
      rw [same, factor, one_mul] at rounds
      rw [sqrt, core, real_positive]
      exact rounds

end HingedPanels.Single
