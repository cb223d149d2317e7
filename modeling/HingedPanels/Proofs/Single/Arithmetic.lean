import HingedPanels.Proofs.Single.Rounds

namespace HingedPanels.Single

open Float.Model (Format UnpackedFloat totalExponent)
open Float.Model.UnpackedFloat (Sign roundWithAccuracy decreaseExponent round normalize add div divCore)

theorem factor_apply (sign : Sign) (n : ℤ) : ((sign.apply n : ℤ) : ℝ) = factor sign * n := by
  cases sign with
  | negative => simp [Sign.apply, factor]
  | positive => simp [Sign.apply, factor]

theorem factor_div (sign sign' : Sign) : factor (sign / sign') = factor sign / factor sign' := by
  cases sign <;> cases sign'
  · exact (by norm_num : (1 : ℝ) = -1 / -1)
  · exact (by norm_num : (-1 : ℝ) = -1 / 1)
  · exact (by norm_num : (-1 : ℝ) = 1 / -1)
  · exact (by norm_num : (1 : ℝ) = 1 / 1)

theorem decreaseExponent_spec (m : ℕ) (e place : ℤ) :
    ((decreaseExponent m e place).1 : ℝ) * 2 ^ (decreaseExponent m e place).2 = m * 2 ^ e ∧
      (decreaseExponent m e place).2 = min e place := by
  rw [decreaseExponent]
  dsimp only
  constructor
  · rw [Nat.shiftLeft_eq, zpow_sub₀ two_ne_zero, zpow_natCast]
    push_cast
    field_simp
  · omega

theorem round_spec (sign : Sign) {m : ℕ} (positive : 0 < m) (e : ℤ) :
    Rounds (round Format.binary32 sign m e) (factor sign * (m * 2 ^ e)) := by
  have positive' : (0 : ℝ) < m := by exact_mod_cast positive
  have aim : Format.binary32.targetExponent (totalExponent m e) = spacing (m * 2 ^ e) :=
    targetExponent_eq_spacing positive' (Int.floor_natCast m).symm (.inl positive)
  have step : UnpackedFloat.round Format.binary32 sign m e =
      roundWithAccuracy Format.binary32 sign (decreaseExponent m e (spacing (m * 2 ^ e))).1
        (decreaseExponent m e (spacing (m * 2 ^ e))).2 .exact := by
    rw [← aim]
    rfl
  obtain ⟨same, low⟩ := decreaseExponent_spec m e (spacing (m * 2 ^ e))
  rw [step]
  generalize decreaseExponent m e (spacing (m * 2 ^ e)) = moved at same low
  rcases moved with ⟨m', e'⟩
  dsimp only at same low ⊢
  have positive'' : (0 : ℝ) < m' := by
    have product : 0 < (m' : ℝ) * 2 ^ e' := by
      rw [same]
      positivity
    exact pos_of_mul_pos_left product (by positivity)
  have fine : e' ≤ spacing (m' * 2 ^ e') := by
    rw [same, low]
    exact min_le_right _ _
  have rounds := roundWithAccuracy_spec (standsFor_exact m') positive'' fine sign
  rwa [same] at rounds

theorem normalize_spec (n : ℤ) (e : ℤ) (sign : Sign) :
    Rounds (UnpackedFloat.normalize Format.binary32 n e sign) (n * 2 ^ e) := by
  rw [UnpackedFloat.normalize]
  rcases lt_trichotomy n 0 with negative | rfl | positive
  · rw [Int.compare_eq_lt.mpr negative]
    have rounds := round_spec .negative (by omega : 0 < (-n).toNat) e
    have cast : (((-n).toNat : ℕ) : ℝ) = -n := by
      exact_mod_cast Int.toNat_of_nonneg (by omega : 0 ≤ -n)
    rwa [cast, factor, neg_one_mul, neg_mul, neg_neg] at rounds
  · rw [Int.compare_eq_eq.mpr rfl]
    refine ⟨rfl, trivial, ?_⟩
    rw [real, Int.cast_zero, zero_mul, rounded_zero]
  · rw [Int.compare_eq_gt.mpr positive]
    have rounds := round_spec .positive (by omega : 0 < n.toNat) e
    have cast : ((n.toNat : ℕ) : ℝ) = n := by
      exact_mod_cast Int.toNat_of_nonneg positive.le
    rwa [cast, factor, one_mul] at rounds

theorem rounds_real {u : UnpackedFloat} (finite : u.isFinite = true) (canonical : Canonical u) :
    Rounds u (real u) :=
  ⟨finite, canonical, (rounded_real canonical).symm⟩

theorem rounds_zero (sign : Sign) : Rounds (.zero sign) 0 := rounds_real rfl trivial

theorem add_spec {a b : UnpackedFloat} (finite : a.isFinite = true) (finite' : b.isFinite = true)
    (canonical : Canonical a) (canonical' : Canonical b) :
    Rounds (add Format.binary32 a b) (real a + real b) := by
  cases a with
  | infinity | notANumber => cases finite
  | zero sign =>
    cases b with
    | infinity | notANumber => cases finite'
    | zero sign' =>
      rw [real, real, add_zero, add]
      split
      · exact rounds_zero sign
      · exact rounds_zero .positive
    | finite s m e positive =>
      have alone := rounds_real finite' canonical'
      rwa [← zero_add (real _)] at alone
  | finite s m e positive =>
    cases b with
    | infinity | notANumber => cases finite'
    | zero sign' =>
      have alone := rounds_real finite canonical
      rwa [← add_zero (real _)] at alone
    | finite s' m' e' positive' =>
      obtain ⟨same, low⟩ := decreaseExponent_spec m e (min e e')
      obtain ⟨same', low'⟩ := decreaseExponent_spec m' e' (min e e')
      rw [low, min_eq_right (min_le_left e e')] at same
      rw [low', min_eq_right (min_le_right e e')] at same'
      have rounds := normalize_spec (s.apply (decreaseExponent m e (min e e')).1 +
        s'.apply (decreaseExponent m' e' (min e e')).1) (min e e') .positive
      rw [Int.cast_add, factor_apply, factor_apply, Int.cast_natCast, Int.cast_natCast, add_mul, mul_assoc,
        mul_assoc, same, same'] at rounds
      exact rounds

theorem add_infinity_left {b : UnpackedFloat} (number : b.isNaN = false) (above : ⊥ < value b) :
    add Format.binary32 (.infinity .positive) b = .infinity .positive := by
  cases b with
  | notANumber => cases number
  | zero | finite => rfl
  | infinity sign =>
    cases sign with
    | negative => exact absurd above (lt_irrefl _)
    | positive => rfl

theorem add_infinity_right {a : UnpackedFloat} (number : a.isNaN = false) (above : ⊥ < value a) :
    add Format.binary32 a (.infinity .positive) = .infinity .positive := by
  cases a with
  | notANumber => cases number
  | zero | finite => rfl
  | infinity sign =>
    cases sign with
    | negative => exact absurd above (lt_irrefl _)
    | positive => rfl

theorem abs_spec {a : UnpackedFloat} (finite : a.isFinite = true) (canonical : Canonical a) :
    Rounds a.abs |real a| := by
  cases a with
  | infinity | notANumber => cases finite
  | zero sign =>
    have nothing := rounds_zero .positive
    rwa [← abs_zero] at nothing
  | finite sign m e positive =>
    have above := magnitude_pos positive e
    have alone : Rounds (.finite .positive m e positive) (real (.finite .positive m e positive)) :=
      rounds_real rfl canonical
    rw [real_positive] at alone
    cases sign with
    | negative => rwa [real_negative, abs_neg, abs_of_pos above]
    | positive => rwa [real_positive, abs_of_pos above]

theorem le_spacing_div {m m' : ℕ} (positive : 0 < m) (positive' : 0 < m') (e e' : ℤ) :
    Format.binary32.targetExponent (totalExponent m e - totalExponent m' e') ≤
      spacing ((m : ℝ) * 2 ^ e / (m' * 2 ^ e')) := by
  have low : (2 : ℝ) ^ (m.log2 + e) ≤ m * 2 ^ e := by
    rw [zpow_add₀ two_ne_zero, zpow_natCast]
    have whole : ((2 ^ m.log2 : ℕ) : ℝ) ≤ m := by exact_mod_cast Nat.log2_self_le positive.ne'
    rw [Nat.cast_pow, Nat.cast_ofNat] at whole
    exact mul_le_mul_of_nonneg_right whole (by positivity)
  have high : (m' : ℝ) * 2 ^ e' ≤ 2 ^ (m'.log2 + 1 + e') := by
    rw [zpow_add₀ two_ne_zero]
    have whole : (m' : ℝ) ≤ ((2 ^ (m'.log2 + 1) : ℕ) : ℝ) := by exact_mod_cast Nat.lt_log2_self.le
    rw [Nat.cast_pow, Nat.cast_ofNat, ← zpow_natCast, Nat.cast_succ] at whole
    exact mul_le_mul_of_nonneg_right whole (by positivity)
  have bound : (2 : ℝ) ^ (m.log2 + e - (m'.log2 + 1 + e')) ≤ m * 2 ^ e / (m' * 2 ^ e') := by
    rw [zpow_sub₀ two_ne_zero]
    exact div_le_div₀ (by positivity) low (by positivity) high
  have quotient : 0 < (m : ℝ) * 2 ^ e / (m' * 2 ^ e') := by positivity
  have log := (Int.zpow_le_iff_le_log one_lt_two quotient).mp (by exact_mod_cast bound)
  rw [targetExponent_eq, spacing, abs_of_pos quotient, totalExponent, totalExponent]
  omega

theorem divCore_spec {m m' : ℕ} (positive : 0 < m) (positive' : 0 < m') (e e' : ℤ) :
    ∃ q place accuracy z, divCore Format.binary32 m e m' e' = (q, place, accuracy) ∧
      StandsFor (.ofMantissaAndAccuracy q accuracy) z ∧ 0 < z ∧
      z * 2 ^ place = (m : ℝ) * 2 ^ e / (m' * 2 ^ e') ∧ place ≤ spacing (z * 2 ^ place) := by
  generalize at_place : min (e - e')
    (Format.binary32.targetExponent (totalExponent m e - totalExponent m' e')) = place
  obtain ⟨k, up⟩ := Int.le.dest (at_place.symm.trans_le (min_le_left _ _))
  have step : (e - e' - place).toNat = k := by omega
  have long : ((m <<< k : ℕ) : ℝ) = m * 2 ^ k := by
    rw [Nat.shiftLeft_eq]
    norm_cast
  have same : ((m <<< k : ℕ) : ℝ) / m' * 2 ^ place = (m : ℝ) * 2 ^ e / (m' * 2 ^ e') := by
    have exponent : e = place + k + e' := by omega
    rw [long, exponent, zpow_add₀ two_ne_zero, zpow_add₀ two_ne_zero, zpow_natCast]
    field_simp
  refine ⟨m <<< k / m', place, _, ((m <<< k : ℕ) : ℝ) / m', ?_, standsFor_fraction _ positive', ?_, same, ?_⟩
  · rw [divCore, at_place, step]
  · rw [long]
    positivity
  · rw [same]
    exact (at_place.symm.trans_le (min_le_right _ _)).trans (le_spacing_div positive positive' e e')

theorem div_spec {a b : UnpackedFloat} (finite : a.isFinite = true) (finite' : b.isFinite = true)
    (nonzero : real b ≠ 0) : Rounds (div Format.binary32 a b) (real a / real b) := by
  cases b with
  | infinity | notANumber => cases finite'
  | zero => exact absurd rfl nonzero
  | finite sign' m' e' positive' =>
    cases a with
    | infinity | notANumber => cases finite
    | zero sign =>
      have nothing := rounds_zero (sign / sign')
      rwa [← zero_div (real _)] at nothing
    | finite sign m e positive =>
      obtain ⟨q, place, accuracy, z, core, stands, some_left, same, fine⟩ :=
        divCore_spec positive positive' e e'
      have rounds := roundWithAccuracy_spec stands some_left fine (sign / sign')
      rw [same, factor_div, div_mul_div_comm] at rounds
      rw [div, core]
      exact rounds

theorem div_infinity {b : UnpackedFloat} (finite : b.isFinite = true) (positive : 0 < real b) :
    div Format.binary32 (.infinity .positive) b = .infinity .positive := by
  cases b with
  | infinity | notANumber => cases finite
  | zero => exact absurd positive (lt_irrefl _)
  | finite sign m e some_places =>
    cases sign with
    | negative => exact absurd positive (real_lt_zero some_places).not_gt
    | positive => rfl

end HingedPanels.Single
