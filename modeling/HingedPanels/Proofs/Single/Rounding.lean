import Mathlib

/-!
The numbers of single precision as values, and rounding of real numbers to 24 binary places, the last of
which is never below the place of `2 ^ -149`. Numbers too large for single precision are rounded here as
if there were no largest one, and clipped afterwards.
-/

namespace HingedPanels.Single

open Float.Model (UnpackedFloat)
open Float.Model.UnpackedFloat (Sign)

def factor : Sign → ℝ
  | .negative => -1
  | .positive => 1

noncomputable def real : UnpackedFloat → ℝ
  | .finite s m e _ => factor s * (m * 2 ^ e)
  | .infinity _ | .notANumber | .zero _ => 0

noncomputable def value : UnpackedFloat → EReal
  | .infinity .positive => ⊤
  | .infinity .negative => ⊥
  | .finite s m e positive => (real (.finite s m e positive) : EReal)
  | .notANumber | .zero _ => 0

/-- The nearest whole number, and of two the even one. -/
noncomputable def halfEven (x : ℝ) : ℤ :=
  if 2 * Int.fract x < 1 then ⌊x⌋ else if 1 < 2 * Int.fract x then ⌊x⌋ + 1 else ⌊x⌋ + ⌊x⌋ % 2

/-- The place of the last digit of a number, as an exponent of two. -/
noncomputable def spacing (x : ℝ) : ℤ := max (Int.log 2 |x| - 23) (-149)

noncomputable def rounded (x : ℝ) : ℝ := halfEven (x / 2 ^ spacing x) * 2 ^ spacing x

/-- Single precision ends at the place of `2 ^ 128`. -/
noncomputable def clip (x : ℝ) : EReal :=
  if 2 ^ 128 ≤ x then ⊤ else if x ≤ -2 ^ 128 then ⊥ else x

theorem floor_le_halfEven (x : ℝ) : ⌊x⌋ ≤ halfEven x := by
  unfold halfEven
  split_ifs <;> omega

theorem halfEven_le_floor_add_one (x : ℝ) : halfEven x ≤ ⌊x⌋ + 1 := by
  unfold halfEven
  split_ifs <;> omega

@[simp] theorem halfEven_intCast (n : ℤ) : halfEven n = n := by
  simp [halfEven]

theorem halfEven_mono {x y : ℝ} (below : x ≤ y) : halfEven x ≤ halfEven y := by
  rcases (Int.floor_mono below).lt_or_eq with apart | same
  · calc
      halfEven x ≤ ⌊x⌋ + 1 := halfEven_le_floor_add_one x
      _ ≤ ⌊y⌋ := apart
      _ ≤ halfEven y := floor_le_halfEven y
  · have share : Int.fract x ≤ Int.fract y := by
      rw [Int.fract, Int.fract, same]
      linarith
    unfold halfEven
    rw [same]
    split_ifs <;> first | omega | linarith

theorem halfEven_neg (x : ℝ) : halfEven (-x) = -halfEven x := by
  by_cases whole : Int.fract x = 0
  · obtain ⟨n, rfl⟩ : ∃ n : ℤ, (n : ℝ) = x := ⟨⌊x⌋, by rw [← Int.self_sub_fract, whole, sub_zero]⟩
    rw [← Int.cast_neg, halfEven_intCast, halfEven_intCast]
  · have share : Int.fract (-x) = 1 - Int.fract x := Int.fract_neg whole
    have floor : ⌊-x⌋ = -⌊x⌋ - 1 := by
      have parts := Int.floor_add_fract (-x)
      have parts' := Int.floor_add_fract x
      have cast : ((⌊-x⌋ : ℤ) : ℝ) = ((-⌊x⌋ - 1 : ℤ) : ℝ) := by
        push_cast
        linarith
      exact_mod_cast cast
    unfold halfEven
    rw [share, floor]
    split_ifs <;> first | omega | linarith

theorem halfEven_mul_zpow_div (n : ℤ) {place finer : ℤ} (below : finer ≤ place) :
    (halfEven (n * 2 ^ place / 2 ^ finer) : ℝ) * 2 ^ finer = n * 2 ^ place := by
  obtain ⟨k, rfl⟩ := Int.le.dest below
  have whole : (n : ℝ) * 2 ^ (finer + (k : ℤ)) / 2 ^ finer = ((n * 2 ^ k : ℤ) : ℝ) := by
    rw [zpow_add₀ two_ne_zero, zpow_natCast]
    push_cast
    field_simp
  rw [whole, halfEven_intCast, ← whole]
  field_simp

theorem least_le_spacing (x : ℝ) : -149 ≤ spacing x := le_max_right _ _

theorem spacing_neg (x : ℝ) : spacing (-x) = spacing x := by
  rw [spacing, spacing, abs_neg]

theorem rounded_neg (x : ℝ) : rounded (-x) = -rounded x := by
  rw [rounded, rounded, spacing_neg, neg_div, halfEven_neg, Int.cast_neg, neg_mul]

@[simp] theorem rounded_zero : rounded 0 = 0 := by
  have whole := halfEven_intCast 0
  rw [Int.cast_zero] at whole
  rw [rounded, zero_div, whole, Int.cast_zero, zero_mul]

theorem rounded_mul_zpow {n place : ℤ} (short : |n| < 2 ^ 24) (least : -149 ≤ place) :
    rounded (n * 2 ^ place) = n * 2 ^ place := by
  by_cases zero : n = 0
  · simp [zero]
  · apply halfEven_mul_zpow_div n (max_le _ least)
    have size : |(n : ℝ) * 2 ^ place| < 2 ^ (place + 24) := by
      have cast : |(n : ℝ)| < 2 ^ 24 := by exact_mod_cast short
      rw [abs_mul, abs_of_pos (by positivity : (0 : ℝ) < 2 ^ place), zpow_add₀ two_ne_zero, mul_comm]
      exact mul_lt_mul_of_pos_left cast (by positivity)
    have positive : 0 < |(n : ℝ) * 2 ^ place| := abs_pos.mpr (by positivity)
    have log := (Int.lt_zpow_iff_log_lt one_lt_two positive).mp (by exact_mod_cast size)
    omega

theorem halfEven_scaled_mono {x y : ℝ} (below : x ≤ y) (place : ℤ) :
    (halfEven (x / 2 ^ place) : ℝ) * 2 ^ place ≤ halfEven (y / 2 ^ place) * 2 ^ place := by
  have whole : halfEven (x / 2 ^ place) ≤ halfEven (y / 2 ^ place) :=
    halfEven_mono (div_le_div_of_nonneg_right below (by positivity))
  have cast : (halfEven (x / 2 ^ place) : ℝ) ≤ halfEven (y / 2 ^ place) := by exact_mod_cast whole
  exact mul_le_mul_of_nonneg_right cast (by positivity)

theorem rounded_nonneg {x : ℝ} (nonneg : 0 ≤ x) : 0 ≤ rounded x := by
  have scaled := halfEven_scaled_mono nonneg (spacing x)
  have whole := halfEven_intCast 0
  rw [Int.cast_zero] at whole
  rwa [zero_div, whole, Int.cast_zero, zero_mul] at scaled

theorem scaled_bounds {x : ℝ} (positive : 0 < x) :
    x / 2 ^ spacing x ≤ 2 ^ 24 ∧ (2 ^ 23 ≤ x / 2 ^ spacing x ∨ spacing x = -149) := by
  have unit : (0 : ℝ) < 2 ^ spacing x := by positivity
  have spaced : spacing x = max (Int.log 2 x - 23) (-149) := by rw [spacing, abs_of_pos positive]
  constructor
  · rw [div_le_iff₀ unit]
    calc
      x ≤ 2 ^ (Int.log 2 x + 1) := by
        exact_mod_cast (Int.lt_zpow_succ_log_self one_lt_two x).le
      _ ≤ 2 ^ (24 + spacing x) := zpow_le_zpow_right₀ one_le_two (by omega)
      _ = 2 ^ 24 * 2 ^ spacing x := by
        rw [zpow_add₀ two_ne_zero]
        norm_cast
  · by_cases least : spacing x = -149
    · exact .inr least
    · rw [le_div_iff₀ unit]
      apply Or.inl
      calc
        (2 : ℝ) ^ 23 * 2 ^ spacing x = 2 ^ (23 + spacing x) := by
          rw [zpow_add₀ two_ne_zero]
          norm_cast
        _ = 2 ^ Int.log 2 x := by
          congr 1
          omega
        _ ≤ x := by
          exact_mod_cast Int.zpow_log_le_self one_lt_two positive

theorem halfEven_scaled_bounds {x : ℝ} (positive : 0 < x) :
    halfEven (x / 2 ^ spacing x) ≤ 2 ^ 24 ∧ (2 ^ 23 ≤ halfEven (x / 2 ^ spacing x) ∨ spacing x = -149) := by
  obtain ⟨short, full⟩ := scaled_bounds positive
  constructor
  · have whole := halfEven_mono (short.trans_eq (by norm_num : (2 : ℝ) ^ 24 = ((2 ^ 24 : ℤ) : ℝ)))
    rwa [halfEven_intCast] at whole
  · apply full.imp_left
    intro full
    have whole := halfEven_mono ((by norm_num : ((2 ^ 23 : ℤ) : ℝ) = 2 ^ 23).trans_le full)
    rwa [halfEven_intCast] at whole

theorem rounded_le_of_pos {x y : ℝ} (positive : 0 < x) (below : x ≤ y) : rounded x ≤ rounded y := by
  have positive' : 0 < y := positive.trans_le below
  have log : Int.log 2 x ≤ Int.log 2 y := Int.log_mono_right positive below
  have spaced : spacing x = max (Int.log 2 x - 23) (-149) := by rw [spacing, abs_of_pos positive]
  have spaced' : spacing y = max (Int.log 2 y - 23) (-149) := by rw [spacing, abs_of_pos positive']
  by_cases same : spacing x = spacing y
  · rw [rounded, rounded, same]
    exact halfEven_scaled_mono below (spacing y)
  -- Between two numbers of different spacing lies a power of two that is whole in both spacings.
  · have apart : Int.log 2 x < Int.log 2 y := by omega
    have finer : spacing x ≤ Int.log 2 y := by omega
    have finer' : spacing y ≤ Int.log 2 y := by omega
    have under : x ≤ 1 * 2 ^ Int.log 2 y := by
      have short := (Int.lt_zpow_iff_log_lt one_lt_two positive).mpr apart
      rw [one_mul]
      exact_mod_cast short.le
    have above : 1 * (2 : ℝ) ^ Int.log 2 y ≤ y := by
      rw [one_mul]
      exact_mod_cast Int.zpow_log_le_self one_lt_two positive'
    calc
      rounded x ≤ halfEven (1 * 2 ^ Int.log 2 y / 2 ^ spacing x) * 2 ^ spacing x :=
        halfEven_scaled_mono under (spacing x)
      _ = 1 * 2 ^ Int.log 2 y := by
        exact_mod_cast halfEven_mul_zpow_div 1 finer
      _ = halfEven (1 * 2 ^ Int.log 2 y / 2 ^ spacing y) * 2 ^ spacing y := by
        exact_mod_cast (halfEven_mul_zpow_div 1 finer').symm
      _ ≤ rounded y := halfEven_scaled_mono above (spacing y)

theorem rounded_mono {x y : ℝ} (below : x ≤ y) : rounded x ≤ rounded y := by
  by_cases positive : 0 < x
  · exact rounded_le_of_pos positive below
  · by_cases negative : y < 0
    · have flipped : rounded (-y) ≤ rounded (-x) := rounded_le_of_pos (by linarith) (by linarith)
      rw [rounded_neg, rounded_neg] at flipped
      linarith
    · have lower : 0 ≤ rounded (-x) := rounded_nonneg (by linarith)
      have upper : 0 ≤ rounded y := rounded_nonneg (by linarith)
      rw [rounded_neg] at lower
      linarith

end HingedPanels.Single
