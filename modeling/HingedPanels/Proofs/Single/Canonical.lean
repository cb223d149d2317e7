import HingedPanels.Proofs.Single.Rounding

/-!
The numbers of single precision and their order. A canonical number has a mantissa of at most 24 places,
all of which it uses unless its last place is the least one, so the order of two numbers can be read off
their exponents and mantissas.
-/

namespace HingedPanels.Single

open Float.Model (UnpackedFloat)
open Float.Model.UnpackedFloat (Sign)

/-- A mantissa and an exponent as single precision has them, but for a bound on the exponent. -/
structure Fits (m : ℕ) (e : ℤ) : Prop where
  short : m < 2 ^ 24
  least : -149 ≤ e
  full : 2 ^ 23 ≤ m ∨ e = -149

def Canonical : UnpackedFloat → Prop
  | .finite _ m e _ => Fits m e
  | .infinity _ | .notANumber | .zero _ => True

theorem value_of_isFinite {u : UnpackedFloat} (finite : u.isFinite = true) : value u = real u := by
  cases u with
  | finite | zero => rfl
  | infinity | notANumber => cases finite

theorem Fits.magnitude_lt {m : ℕ} {e : ℤ} (fits : Fits m e) : (m : ℝ) * 2 ^ e < 2 ^ (e + 24) := by
  have short : (m : ℝ) < 2 ^ 24 := by exact_mod_cast fits.short
  rw [zpow_add₀ two_ne_zero, mul_comm]
  exact mul_lt_mul_of_pos_left (by exact_mod_cast short) (by positivity)

theorem rounded_factor_mul (sign : Sign) (x : ℝ) : rounded (factor sign * x) = factor sign * rounded x := by
  cases sign with
  | negative => rw [factor, neg_one_mul, neg_one_mul, rounded_neg]
  | positive => rw [factor, one_mul, one_mul]

theorem rounded_real {u : UnpackedFloat} (canonical : Canonical u) : rounded (real u) = real u := by
  cases u with
  | infinity | notANumber | zero => exact rounded_zero
  | finite s m e positive =>
    have short : |(m : ℤ)| < 2 ^ 24 := by
      rw [Nat.abs_cast]
      exact_mod_cast canonical.short
    have same : rounded ((m : ℤ) * 2 ^ e) = (m : ℤ) * 2 ^ e := rounded_mul_zpow short canonical.least
    rw [Int.cast_natCast] at same
    rw [real, rounded_factor_mul, same]

theorem Fits.compares {m n : ℕ} {e f : ℤ} (fits : Fits m e) (fits' : Fits n f) :
    ((compare e f).then (compare m n)).Compares ((m : ℝ) * 2 ^ e) ((n : ℝ) * 2 ^ f) := by
  have order {m n : ℕ} {e f : ℤ} (fits : Fits m e) (fits' : Fits n f) (apart : e < f) :
      (m : ℝ) * 2 ^ e < (n : ℝ) * 2 ^ f := by
    have full : (2 : ℝ) ^ 23 ≤ n := by
      have full := fits'.full.resolve_right (by have := fits.least; omega)
      exact_mod_cast full
    calc
      (m : ℝ) * 2 ^ e < 2 ^ (e + 24) := fits.magnitude_lt
      _ ≤ 2 ^ (f + 23) := zpow_le_zpow_right₀ one_le_two (by omega)
      _ = 2 ^ 23 * 2 ^ f := by
        rw [zpow_add₀ two_ne_zero, mul_comm]
        norm_cast
      _ ≤ (n : ℝ) * 2 ^ f := mul_le_mul_of_nonneg_right full (by positivity)
  rcases lt_trichotomy e f with apart | rfl | apart
  · rw [Int.compare_eq_lt.mpr apart]
    exact order fits fits' apart
  · rw [Int.compare_eq_eq.mpr rfl]
    have positive : (0 : ℝ) < 2 ^ e := by positivity
    rcases lt_trichotomy m n with below | rfl | above
    · rw [Nat.compare_eq_lt.mpr below]
      exact mul_lt_mul_of_pos_right (by exact_mod_cast below) positive
    · rw [Nat.compare_eq_eq.mpr rfl]
      exact rfl
    · rw [Nat.compare_eq_gt.mpr above]
      exact mul_lt_mul_of_pos_right (by exact_mod_cast above) positive
  · rw [Int.compare_eq_gt.mpr apart]
    exact order fits' fits apart

theorem magnitude_pos {m : ℕ} (positive : 0 < m) (e : ℤ) : (0 : ℝ) < m * 2 ^ e := by
  have positive' : (0 : ℝ) < m := by exact_mod_cast positive
  positivity

theorem real_positive {m : ℕ} {e : ℤ} (positive : 0 < m) :
    real (.finite .positive m e positive) = m * 2 ^ e := by
  rw [real, factor, one_mul]

theorem real_negative {m : ℕ} {e : ℤ} (positive : 0 < m) :
    real (.finite .negative m e positive) = -(m * 2 ^ e) := by
  rw [real, factor, neg_one_mul]

theorem real_lt_zero {m : ℕ} {e : ℤ} (positive : 0 < m) : real (.finite .negative m e positive) < 0 := by
  rw [real_negative]
  exact neg_neg_of_pos (magnitude_pos positive e)

theorem zero_lt_real {m : ℕ} {e : ℤ} (positive : 0 < m) : 0 < real (.finite .positive m e positive) := by
  rw [real_positive]
  exact magnitude_pos positive e

theorem swap_compares_neg {order : Ordering} {x y : ℝ} (compares : order.Compares x y) :
    order.swap.Compares (-x) (-y) := by
  cases order with
  | lt | gt => exact neg_lt_neg compares
  | eq => exact congrArg Neg.neg compares

theorem compare_real {a b : UnpackedFloat} (finite : a.isFinite = true) (finite' : b.isFinite = true)
    (canonical : Canonical a) (canonical' : Canonical b) :
    ∃ order : Ordering, a.compare b = some order ∧ order.Compares (real a) (real b) := by
  cases a with
  | infinity | notANumber => cases finite
  | zero s =>
    cases b with
    | infinity | notANumber => cases finite'
    | zero => exact ⟨.eq, rfl, rfl⟩
    | finite s' n f positive' =>
      cases s' with
      | negative => exact ⟨.gt, rfl, real_lt_zero positive'⟩
      | positive => exact ⟨.lt, rfl, zero_lt_real positive'⟩
  | finite s m e positive =>
    cases b with
    | infinity | notANumber => cases finite'
    | zero =>
      cases s with
      | negative => exact ⟨.lt, rfl, real_lt_zero positive⟩
      | positive => exact ⟨.gt, rfl, zero_lt_real positive⟩
    | finite s' n f positive' =>
      have compares := Fits.compares canonical canonical'
      cases s <;> cases s'
      case negative.negative =>
        refine ⟨_, rfl, ?_⟩
        rw [real_negative, real_negative]
        exact swap_compares_neg compares
      case negative.positive => exact ⟨.lt, rfl, (real_lt_zero positive).trans (zero_lt_real positive')⟩
      case positive.negative => exact ⟨.gt, rfl, (real_lt_zero positive').trans (zero_lt_real positive)⟩
      case positive.positive =>
        refine ⟨_, rfl, ?_⟩
        rw [real_positive, real_positive]
        exact compares

theorem finite_or_infinity {u : UnpackedFloat} (number : u.isNaN = false) :
    u.isFinite = true ∨ ∃ sign, u = .infinity sign := by
  cases u with
  | notANumber => cases number
  | infinity sign => exact .inr ⟨sign, rfl⟩
  | zero | finite => exact .inl rfl

theorem compare_infinity_finite (sign : Sign) {b : UnpackedFloat} (finite : b.isFinite = true) :
    ∃ order : Ordering, UnpackedFloat.compare (.infinity sign) b = some order ∧
      order.Compares (value (.infinity sign)) (value b) := by
  rw [value_of_isFinite finite]
  cases b with
  | notANumber | infinity => cases finite
  | zero | finite =>
    cases sign with
    | negative => exact ⟨.lt, rfl, EReal.bot_lt_coe _⟩
    | positive => exact ⟨.gt, rfl, EReal.coe_lt_top _⟩

theorem compare_finite_infinity (sign : Sign) {a : UnpackedFloat} (finite : a.isFinite = true) :
    ∃ order : Ordering, UnpackedFloat.compare a (.infinity sign) = some order ∧
      order.Compares (value a) (value (.infinity sign)) := by
  rw [value_of_isFinite finite]
  cases a with
  | notANumber | infinity => cases finite
  | zero | finite =>
    cases sign with
    | negative => exact ⟨.gt, rfl, EReal.bot_lt_coe _⟩
    | positive => exact ⟨.lt, rfl, EReal.coe_lt_top _⟩

theorem compare_infinity_infinity (sign sign' : Sign) :
    ∃ order : Ordering, UnpackedFloat.compare (.infinity sign) (.infinity sign') = some order ∧
      order.Compares (value (.infinity sign)) (value (.infinity sign')) := by
  cases sign <;> cases sign'
  · exact ⟨.eq, rfl, rfl⟩
  · exact ⟨.lt, rfl, bot_lt_top⟩
  · exact ⟨.gt, rfl, bot_lt_top⟩
  · exact ⟨.eq, rfl, rfl⟩

theorem compare_value {a b : UnpackedFloat} (number : a.isNaN = false) (number' : b.isNaN = false)
    (canonical : Canonical a) (canonical' : Canonical b) :
    ∃ order : Ordering, a.compare b = some order ∧ order.Compares (value a) (value b) := by
  rcases finite_or_infinity number with finite | ⟨sign, rfl⟩ <;>
    rcases finite_or_infinity number' with finite' | ⟨sign', rfl⟩
  · obtain ⟨order, same, compares⟩ := compare_real finite finite' canonical canonical'
    refine ⟨order, same, ?_⟩
    rw [value_of_isFinite finite, value_of_isFinite finite']
    cases order with
    | lt | gt => exact EReal.coe_lt_coe_iff.mpr compares
    | eq => exact congrArg Real.toEReal compares
  · exact compare_finite_infinity sign' finite
  · exact compare_infinity_finite sign finite'
  · exact compare_infinity_infinity sign sign'

theorem numbers_of_compare {a b : UnpackedFloat} {order : Ordering} (found : a.compare b = some order) :
    a.isNaN = false ∧ b.isNaN = false := by
  cases a with
  | notANumber => cases found
  | infinity s =>
    cases b with
    | notANumber => cases s <;> cases found
    | infinity | zero | finite => exact ⟨rfl, rfl⟩
  | zero s =>
    cases b with
    | notANumber => cases found
    | infinity | zero | finite => exact ⟨rfl, rfl⟩
  | finite s m e positive =>
    cases b with
    | notANumber => cases s <;> cases found
    | infinity | zero | finite => exact ⟨rfl, rfl⟩

theorem le_iff_value {a b : UnpackedFloat} (canonical : Canonical a) (canonical' : Canonical b) :
    a.le b = true ↔ a.isNaN = false ∧ b.isNaN = false ∧ value a ≤ value b := by
  constructor
  · intro below
    obtain ⟨_, found, _⟩ := (Option.any_eq_true _ _).mp below
    obtain ⟨number, number'⟩ := numbers_of_compare found
    obtain ⟨order, same, compares⟩ := compare_value number number' canonical canonical'
    refine ⟨number, number', ?_⟩
    rw [UnpackedFloat.le, same] at below
    cases order with
    | lt => exact le_of_lt compares
    | eq => exact le_of_eq compares
    | gt => cases below
  · rintro ⟨number, number', below⟩
    obtain ⟨order, same, compares⟩ := compare_value number number' canonical canonical'
    rw [UnpackedFloat.le, same]
    cases order with
    | lt | eq => rfl
    | gt => exact absurd compares below.not_gt

theorem lt_iff_value {a b : UnpackedFloat} (canonical : Canonical a) (canonical' : Canonical b) :
    a.lt b = true ↔ a.isNaN = false ∧ b.isNaN = false ∧ value a < value b := by
  constructor
  · intro below
    obtain ⟨number, number'⟩ := numbers_of_compare (beq_iff_eq.mp below)
    obtain ⟨order, same, compares⟩ := compare_value number number' canonical canonical'
    refine ⟨number, number', ?_⟩
    rw [UnpackedFloat.lt, same] at below
    cases order with
    | lt => exact compares
    | eq | gt => cases below
  · rintro ⟨number, number', below⟩
    obtain ⟨order, same, compares⟩ := compare_value number number' canonical canonical'
    rw [UnpackedFloat.lt, same]
    cases order with
    | lt => rfl
    | eq => exact absurd compares below.ne
    | gt => exact absurd compares below.not_gt

end HingedPanels.Single
