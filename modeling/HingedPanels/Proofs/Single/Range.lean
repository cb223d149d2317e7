import HingedPanels.Proofs.Single.Number
import HingedPanels.Proofs.Single.Products

namespace HingedPanels.Single

open Float.Model (Format UnpackedFloat)
open Float.Model.UnpackedFloat (Sign pack unpack)

theorem unpacked_sub (a b : Float32) :
    unpacked (a - b) = unpack Format.binary32 (pack Format.binary32
      (UnpackedFloat.sub Format.binary32 (unpacked a) (unpacked b))) := rfl

theorem unpacked_mul (a b : Float32) :
    unpacked (a * b) = unpack Format.binary32 (pack Format.binary32
      (UnpackedFloat.mul Format.binary32 (unpacked a) (unpacked b))) := rfl

theorem unpacked_sqrt (a : Float32) :
    unpacked a.sqrt = unpack Format.binary32 (pack Format.binary32
      (UnpackedFloat.sqrt Format.binary32 (unpacked a))) := rfl

theorem unpacked_neg (a : Float32) : unpacked (-a) = (unpacked a).neg := by
  have packed : unpacked (-a) = unpack Format.binary32 (pack Format.binary32 (unpacked a).neg) := rfl
  have canonical := canonical_unpacked a
  have settled := settle_unpacked a
  generalize unpacked a = u at packed canonical settled
  cases u with
  | notANumber | infinity | zero => exact packed.trans (unpack_pack (by trivial))
  | finite sign m e positive =>
    have most : e ≤ 104 := by
      by_contra large
      rw [settle, if_pos (not_le.mp large)] at settled
      cases settled
    exact (packed.trans (unpack_pack (by exact canonical))).trans (settle_of_le (-sign) positive most)

theorem isFinite_neg (a : Float32) : (-a).isFinite = a.isFinite := by
  change (unpacked (-a)).isFinite = (unpacked a).isFinite
  rw [unpacked_neg]
  cases unpacked a <;> rfl

theorem realOf_neg (a : Float32) : realOf (-a) = -realOf a := by
  rw [realOf, unpacked_neg, real_neg, realOf]

theorem unpacked_sub_eq (a b : Float32) : unpacked (a - b) = unpacked (a + -b) := by
  rw [unpacked_sub, unpacked_add, unpacked_neg, sub_eq_add_neg]

theorem isFinite_sub (a b : Float32) : (a - b).isFinite = (a + -b).isFinite :=
  congrArg UnpackedFloat.isFinite (unpacked_sub_eq a b)

theorem valueOf_mul {a b : Float32} (finite : a.isFinite = true) (finite' : b.isFinite = true) :
    (a * b).isNaN = false ∧ valueOf (a * b) = nearest (realOf a * realOf b) :=
  (mul_spec finite finite' (canonical_unpacked a) (canonical_unpacked b)).valueOf_eq (unpacked_mul a b)

theorem valueOf_sqrt {a : Float32} (finite : a.isFinite = true) (nonneg : 0 ≤ realOf a) :
    a.sqrt.isNaN = false ∧ valueOf a.sqrt = nearest √(realOf a) :=
  (sqrt_spec finite nonneg).valueOf_eq (unpacked_sqrt a)

/-! ### What a finite result says -/

theorem finite_of_packed {r : Float32} {u : UnpackedFloat} (finite : r.isFinite = true)
    (packed : unpacked r = unpack Format.binary32 (pack Format.binary32 u)) : u.isFinite = true := by
  change (unpacked r).isFinite = true at finite
  cases u with
  | zero | finite => rfl
  | notANumber | infinity =>
    rw [packed, unpack_pack (by trivial)] at finite
    exact finite

theorem finite_of_add {a b : Float32} (finite : (a + b).isFinite = true) :
    a.isFinite = true ∧ b.isFinite = true := by
  have finite := finite_of_packed finite (unpacked_add a b)
  change (unpacked a).isFinite = true ∧ (unpacked b).isFinite = true
  generalize unpacked a = u at finite
  generalize unpacked b = v at finite
  cases u with
  | notANumber => cases finite
  | infinity sign =>
    cases v with
    | notANumber | zero | finite => cases finite
    | infinity sign' => cases sign <;> cases sign' <;> cases finite
  | zero | finite =>
    cases v with
    | notANumber | infinity => cases finite
    | zero | finite => exact ⟨rfl, rfl⟩

theorem finite_of_sub {a b : Float32} (finite : (a - b).isFinite = true) :
    a.isFinite = true ∧ b.isFinite = true := by
  rw [isFinite_sub] at finite
  rw [← isFinite_neg b]
  exact finite_of_add finite

theorem finite_of_mul {a b : Float32} (finite : (a * b).isFinite = true) :
    a.isFinite = true ∧ b.isFinite = true := by
  have finite := finite_of_packed finite (unpacked_mul a b)
  change (unpacked a).isFinite = true ∧ (unpacked b).isFinite = true
  generalize unpacked a = u at finite
  generalize unpacked b = v at finite
  cases u with
  | notANumber => cases finite
  | infinity => cases v <;> cases finite
  | zero | finite =>
    cases v with
    | notANumber | infinity => cases finite
    | zero | finite => exact ⟨rfl, rfl⟩

theorem finite_of_sqrt {a : Float32} (finite : a.sqrt.isFinite = true) :
    a.isFinite = true ∧ 0 ≤ realOf a := by
  have finite := finite_of_packed finite (unpacked_sqrt a)
  change (unpacked a).isFinite = true ∧ 0 ≤ real (unpacked a)
  generalize unpacked a = u at finite
  cases u with
  | notANumber => cases finite
  | infinity sign => cases sign <;> cases finite
  | zero => exact ⟨rfl, le_rfl⟩
  | finite sign m e positive =>
    cases sign with
    | negative => cases finite
    | positive => exact ⟨rfl, (zero_lt_real positive).le⟩

theorem nonzero_of_div {a b : Float32} (finite : (a / b).isFinite = true) (finite' : b.isFinite = true) :
    realOf b ≠ 0 := by
  have finite := finite_of_packed finite (unpacked_div a b)
  change real (unpacked b) ≠ 0
  change (unpacked b).isFinite = true at finite'
  generalize unpacked a = u at finite
  generalize unpacked b = v at finite finite'
  cases v with
  | notANumber | infinity => cases finite'
  | zero => cases u <;> cases finite
  | finite sign m e positive =>
    cases sign with
    | negative => exact (real_lt_zero positive).ne
    | positive => exact (zero_lt_real positive).ne'

theorem realOf_of_nearest {r : Float32} {x : ℝ} (nears : r.isNaN = false ∧ valueOf r = nearest x)
    (finite : r.isFinite = true) : realOf r = rounded x ∧ |rounded x| < 2 ^ 128 := by
  have same := nears.2
  rw [valueOf_eq_realOf finite, nearest, clip] at same
  split at same
  case isTrue => exact absurd same (EReal.coe_ne_top _)
  case isFalse below =>
    split at same
    case isTrue => exact absurd same (EReal.coe_ne_bot _)
    case isFalse above => exact ⟨EReal.coe_injective same, abs_lt.mpr ⟨not_le.mp above, not_le.mp below⟩⟩

theorem finite_of_nearest {r : Float32} {x : ℝ} (nears : r.isNaN = false ∧ valueOf r = nearest x)
    (small : |rounded x| < 2 ^ 128) : r.isFinite = true := by
  rcases finite_or_infinite nears.1 with finite | ⟨sign, infinite⟩
  · exact finite
  · have same := nears.2
    rw [nearest, clip_of_abs_lt small, valueOf, infinite] at same
    cases sign with
    | negative => exact absurd same.symm (EReal.coe_ne_bot _)
    | positive => exact absurd same.symm (EReal.coe_ne_top _)

theorem realOf_add {a b : Float32} (finite : (a + b).isFinite = true) :
    realOf (a + b) = rounded (realOf a + realOf b) ∧ |rounded (realOf a + realOf b)| < 2 ^ 128 := by
  obtain ⟨left, right⟩ := finite_of_add finite
  exact realOf_of_nearest (valueOf_add left right) finite

theorem realOf_mul {a b : Float32} (finite : (a * b).isFinite = true) :
    realOf (a * b) = rounded (realOf a * realOf b) ∧ |rounded (realOf a * realOf b)| < 2 ^ 128 := by
  obtain ⟨left, right⟩ := finite_of_mul finite
  exact realOf_of_nearest (valueOf_mul left right) finite

theorem realOf_sqrt {a : Float32} (finite : a.sqrt.isFinite = true) : realOf a.sqrt = rounded √(realOf a) := by
  obtain ⟨inner, nonneg⟩ := finite_of_sqrt finite
  exact (realOf_of_nearest (valueOf_sqrt inner nonneg) finite).1

theorem rounded_realOf (x : Float32) : rounded (realOf x) = realOf x := rounded_real (canonical_unpacked x)

/-! ### Sizes -/

theorem rounded_two_zpow {k : ℤ} (least : -149 ≤ k) : rounded (2 ^ k) = 2 ^ k := by
  have power : rounded ((1 : ℤ) * 2 ^ k) = (1 : ℤ) * 2 ^ k := rounded_mul_zpow (by norm_num) least
  rwa [Int.cast_one, one_mul] at power

theorem abs_rounded (x : ℝ) : |rounded x| = rounded |x| := by
  rcases le_total 0 x with nonneg | nonpos
  · rw [abs_of_nonneg nonneg, abs_of_nonneg (rounded_nonneg nonneg)]
  · have flipped := rounded_nonneg (neg_nonneg.mpr nonpos)
    rw [rounded_neg] at flipped
    rw [abs_of_nonpos nonpos, abs_of_nonpos (neg_nonneg.mp flipped), rounded_neg]

theorem abs_rounded_le {x : ℝ} {k : ℤ} (least : -149 ≤ k) (below : |x| ≤ 2 ^ k) : |rounded x| ≤ 2 ^ k := by
  rw [abs_rounded, ← rounded_two_zpow least]
  exact rounded_mono below

theorem le_rounded {x : ℝ} {k : ℤ} (least : -149 ≤ k) (above : 2 ^ k ≤ x) : 2 ^ k ≤ rounded x := by
  rw [← rounded_two_zpow least]
  exact rounded_mono above

structure Within (k : ℕ) (x : Float32) : Prop where
  finite : x.isFinite = true
  abs_le : |realOf x| ≤ 2 ^ k

namespace Within

variable {a b : Float32} {j k : ℕ}

theorem of_nearest {r : Float32} {x : ℝ} (nears : r.isNaN = false ∧ valueOf r = nearest x)
    (below : |x| ≤ 2 ^ k) (range : k ≤ 127) : Within k r := by
  have size : |rounded x| ≤ 2 ^ k := by exact_mod_cast abs_rounded_le (k := k) (by omega) (by exact_mod_cast below)
  have finite := finite_of_nearest nears (size.trans_lt (pow_lt_pow_right₀ one_lt_two (by omega)))
  refine ⟨finite, ?_⟩
  rwa [(realOf_of_nearest nears finite).1]

theorem mono (within : Within j a) (wider : j ≤ k) : Within k a :=
  ⟨within.finite, within.abs_le.trans (pow_le_pow_right₀ one_le_two wider)⟩

theorem neg (within : Within k a) : Within k (-a) := by
  constructor
  · rw [isFinite_neg]
    exact within.finite
  · rw [realOf_neg, abs_neg]
    exact within.abs_le

theorem add (within : Within k a) (within' : Within k b) (range : k + 1 ≤ 127) : Within (k + 1) (a + b) := by
  apply of_nearest (valueOf_add within.finite within'.finite) _ range
  calc
    |realOf a + realOf b| ≤ |realOf a| + |realOf b| := abs_add_le _ _
    _ ≤ 2 ^ k + 2 ^ k := add_le_add within.abs_le within'.abs_le
    _ = 2 ^ (k + 1) := by ring

theorem sub (within : Within k a) (within' : Within k b) (range : k + 1 ≤ 127) : Within (k + 1) (a - b) := by
  have sum := within.add within'.neg range
  constructor
  · rw [isFinite_sub]
    exact sum.finite
  · rw [realOf, unpacked_sub_eq]
    exact sum.abs_le

theorem mul (within : Within j a) (within' : Within k b) (range : j + k ≤ 127) : Within (j + k) (a * b) := by
  apply of_nearest (valueOf_mul within.finite within'.finite) _ range
  rw [abs_mul, pow_add]
  exact mul_le_mul within.abs_le within'.abs_le (abs_nonneg _) (by positivity)

end Within

theorem abs_realOf_le {x : Float32} (finite : x.isFinite = true) : |realOf x| ≤ 2 ^ 128 - 2 ^ 104 := by
  have canonical := canonical_unpacked x
  have settled := settle_unpacked x
  change (unpacked x).isFinite = true at finite
  rw [realOf]
  generalize unpacked x = u at canonical settled finite
  cases u with
  | notANumber | infinity => cases finite
  | zero => norm_num [real]
  | finite sign m e positive =>
    have most : e ≤ 104 := by
      by_contra large
      rw [settle, if_pos (not_le.mp large)] at settled
      cases settled
    have short : (m : ℝ) ≤ 2 ^ 24 - 1 := by
      have short : ((m + 1 : ℕ) : ℝ) ≤ 2 ^ 24 := by exact_mod_cast canonical.short
      push_cast at short
      linarith
    have size : (m : ℝ) * 2 ^ e ≤ (2 ^ 24 - 1) * 2 ^ (104 : ℤ) :=
      mul_le_mul short (zpow_le_zpow_right₀ one_le_two most) (by positivity) (by norm_num)
    have same : |real (.finite sign m e positive)| = m * 2 ^ e := by
      have above := magnitude_pos positive e
      cases sign with
      | negative => rw [real_negative, abs_neg, abs_of_pos above]
      | positive => rw [real_positive, abs_of_pos above]
    rw [same]
    exact size.trans (by norm_num)

theorem rounded_past_last : rounded (2 ^ 128 - 2 ^ 104 + 2 ^ 102) = 2 ^ 128 - 2 ^ 104 := by
  have positive : (0 : ℝ) < 2 ^ 128 - 2 ^ 104 + 2 ^ 102 := by norm_num
  have low := (Int.zpow_le_iff_le_log (x := 127) one_lt_two positive).mp (by norm_num)
  have high := (Int.lt_zpow_iff_log_lt (x := 128) one_lt_two positive).mp (by norm_num)
  have spaced : spacing (2 ^ 128 - 2 ^ 104 + 2 ^ 102) = 104 := by
    rw [spacing, abs_of_pos positive]
    omega
  have scaled : ((2 : ℝ) ^ 128 - 2 ^ 104 + 2 ^ 102) / 2 ^ (104 : ℤ) = (2 ^ 24 - 1 : ℤ) + 1 / 4 := by norm_num
  have whole : ⌊((2 ^ 24 - 1 : ℤ) : ℝ) + 1 / 4⌋ = 2 ^ 24 - 1 := by
    rw [Int.floor_eq_iff]
    norm_num
  have rest : 2 * Int.fract (((2 ^ 24 - 1 : ℤ) : ℝ) + 1 / 4) < 1 := by
    rw [Int.fract, whole]
    norm_num
  rw [rounded, spaced, scaled, halfEven, if_pos rest, whole]
  norm_num

/-- Far below the last digit of the largest numbers, a summand cannot make a sum infinite. -/
theorem finite_add_within {a b : Float32} (finite : a.isFinite = true) (within : Within 102 b) :
    (a + b).isFinite = true := by
  apply finite_of_nearest (valueOf_add finite within.finite)
  have size : |realOf a + realOf b| ≤ 2 ^ 128 - 2 ^ 104 + 2 ^ 102 :=
    (abs_add_le _ _).trans (add_le_add (abs_realOf_le finite) within.abs_le)
  rw [abs_rounded]
  calc
    rounded |realOf a + realOf b| ≤ rounded (2 ^ 128 - 2 ^ 104 + 2 ^ 102) := rounded_mono size
    _ = 2 ^ 128 - 2 ^ 104 := rounded_past_last
    _ < 2 ^ 128 := by norm_num

theorem realOf_one : realOf 1 = 1 := by
  change (1 : ℝ) * ((2 ^ 23 : ℕ) * 2 ^ (-23 : ℤ)) = 1
  norm_num

theorem within_zero {x : Float32} (above : -1 ≤ x) (below : x ≤ 1) : Within 0 x := by
  obtain ⟨_, number, above⟩ := le_iff_valueOf.mp above
  obtain ⟨_, _, below⟩ := le_iff_valueOf.mp below
  rw [valueOf_eq_realOf (x := -1) rfl, realOf_neg, realOf_one] at above
  rw [valueOf_eq_realOf (x := 1) rfl, realOf_one] at below
  rcases finite_or_infinite number with finite | ⟨sign, infinite⟩
  · rw [valueOf_eq_realOf finite] at above below
    refine ⟨finite, ?_⟩
    rw [pow_zero]
    exact abs_le.mpr ⟨EReal.coe_le_coe_iff.mp above, EReal.coe_le_coe_iff.mp below⟩
  · rw [valueOf, infinite] at above below
    cases sign with
    | negative => exact absurd above (EReal.bot_lt_coe _).not_ge
    | positive => exact absurd below (EReal.coe_lt_top _).not_ge

/-! ### Results that are numbers -/

theorem number_sub {a b : Float32} (number : a.isNaN = false) (finite : b.isFinite = true) :
    (a - b).isNaN = false := by
  have same : (a - b).isNaN = (a + -b).isNaN := congrArg UnpackedFloat.isNaN (unpacked_sub_eq a b)
  rw [← isFinite_neg] at finite
  rw [same]
  rcases finite_or_infinite number with finite' | ⟨sign, infinite⟩
  · exact (valueOf_add finite' finite).1
  · have sum : UnpackedFloat.add Format.binary32 (unpacked a) (unpacked (-b)) = .infinity sign := by
      change (unpacked (-b)).isFinite = true at finite
      rw [infinite]
      generalize unpacked (-b) = u at finite
      cases u with
      | notANumber | infinity => cases finite
      | zero | finite => rfl
    change (unpacked (a + -b)).isNaN = false
    rw [unpacked_add, sum, unpack_pack (by trivial)]
    rfl

theorem number_div {a b : Float32} (finite : a.isFinite = true) (positive : 0 < b) : (a / b).isNaN = false := by
  obtain ⟨_, number, positive⟩ := lt_iff_valueOf.mp positive
  rw [valueOf_zero] at positive
  rcases finite_or_infinite number with finite' | ⟨sign, infinite⟩
  · rw [valueOf_eq_realOf finite'] at positive
    exact (valueOf_div finite finite' (EReal.coe_pos.mp positive).ne').1
  · have quotient : ∃ sign, UnpackedFloat.div Format.binary32 (unpacked a) (unpacked b) = .zero sign := by
      change (unpacked a).isFinite = true at finite
      rw [infinite]
      generalize unpacked a = u at finite
      cases u with
      | notANumber | infinity => cases finite
      | zero | finite => exact ⟨_, rfl⟩
    obtain ⟨sign', quotient⟩ := quotient
    change (unpacked (a / b)).isNaN = false
    rw [unpacked_div, quotient, unpack_pack (by trivial)]
    rfl

/-! ### Roots of sums of squares -/

theorem least_le_realOf {x : Float32} (positive : 0 < realOf x) : 2 ^ (-149 : ℤ) ≤ realOf x := by
  have canonical := canonical_unpacked x
  rw [realOf] at positive ⊢
  generalize unpacked x = u at canonical positive ⊢
  cases u with
  | notANumber | infinity | zero => exact absurd positive (lt_irrefl _)
  | finite sign m e some_places =>
    cases sign with
    | negative => exact absurd positive (real_lt_zero some_places).not_gt
    | positive =>
      have whole : (1 : ℝ) ≤ m := by exact_mod_cast some_places
      rw [real_positive]
      calc
        (2 : ℝ) ^ (-149 : ℤ) ≤ 2 ^ e := zpow_le_zpow_right₀ one_le_two canonical.least
        _ ≤ m * 2 ^ e := le_mul_of_one_le_left (by positivity) whole

theorem within_of_mul_self {x : Float32} (finite : (x * x).isFinite = true) : Within 64 x := by
  refine ⟨(finite_of_mul finite).1, ?_⟩
  by_contra large
  have square : (2 : ℝ) ^ (128 : ℤ) ≤ realOf x * realOf x := by
    rw [← abs_mul_abs_self]
    calc
      (2 : ℝ) ^ (128 : ℤ) = 2 ^ 64 * 2 ^ 64 := by norm_num
      _ ≤ |realOf x| * |realOf x| := mul_self_le_mul_self (by positivity) (not_le.mp large).le
  have past := (le_rounded (by norm_num) square).trans (le_abs_self _)
  exact absurd (realOf_mul finite).2 (not_lt.mpr (by exact_mod_cast past))

theorem Within.sqrt {d : Float32} {k : ℕ} (within : Within k d) (nonneg : 0 ≤ realOf d) (range : k ≤ 127) :
    Within k d.sqrt ∧ 0 ≤ realOf d.sqrt := by
  have nears := valueOf_sqrt within.finite nonneg
  have size : √(realOf d) ≤ 2 ^ k := by
    rw [Real.sqrt_le_left (by positivity)]
    have one : (1 : ℝ) ≤ 2 ^ k := one_le_pow₀ one_le_two
    calc
      realOf d ≤ 2 ^ k := (le_abs_self _).trans within.abs_le
      _ ≤ (2 ^ k) ^ 2 := le_self_pow₀ one two_ne_zero
  have root : Within k d.sqrt := Within.of_nearest nears (by rwa [abs_of_nonneg (Real.sqrt_nonneg _)]) range
  refine ⟨root, ?_⟩
  rw [(realOf_of_nearest nears root.finite).1]
  exact rounded_nonneg (Real.sqrt_nonneg _)

theorem mul_self_realOf_nonneg {x : Float32} (finite : (x * x).isFinite = true) : 0 ≤ realOf (x * x) := by
  rw [(realOf_mul finite).1]
  exact rounded_nonneg (mul_self_nonneg _)

theorem realOf_le_add {a b : Float32} (finite : (a + b).isFinite = true) (nonneg : 0 ≤ realOf b) :
    realOf a ≤ realOf (a + b) := by
  have bigger := rounded_mono (le_add_of_nonneg_right (a := realOf a) nonneg)
  rwa [rounded_realOf, ← (realOf_add finite).1] at bigger

theorem realOf_le_add' {a b : Float32} (finite : (a + b).isFinite = true) (nonneg : 0 ≤ realOf a) :
    realOf b ≤ realOf (a + b) := by
  have bigger := rounded_mono (le_add_of_nonneg_left (a := realOf b) nonneg)
  rwa [rounded_realOf, ← (realOf_add finite).1] at bigger

theorem le_realOf_sqrt {d : Float32} (finite : d.sqrt.isFinite = true) (positive : 0 < realOf d.sqrt) :
    2 ^ (-75 : ℤ) ≤ realOf d.sqrt := by
  rw [realOf_sqrt finite] at positive ⊢
  have inner : 0 < realOf d := by
    by_contra none
    rw [Real.sqrt_eq_zero_of_nonpos (not_lt.mp none), rounded_zero] at positive
    exact lt_irrefl _ positive
  apply le_rounded (by norm_num)
  rw [Real.le_sqrt' (by positivity)]
  calc
    ((2 : ℝ) ^ (-75 : ℤ)) ^ 2 ≤ 2 ^ (-149 : ℤ) := by norm_num
    _ ≤ realOf d := least_le_realOf inner

/-- The root of a sum that contains a square is not much smaller than what was squared, also where the
square itself is too small for single precision. -/
theorem abs_le_two_mul_sqrt {x d : Float32} (finite : d.sqrt.isFinite = true) (positive : 0 < realOf d.sqrt)
    (square : (x * x).isFinite = true) (contains : realOf (x * x) ≤ realOf d) :
    |realOf x| ≤ 2 * realOf d.sqrt := by
  by_contra large
  have large := not_le.mp large
  have some_size : 0 < |realOf x| := (mul_pos two_pos positive).trans large
  have low : (2 : ℝ) ^ Int.log 2 |realOf x| ≤ |realOf x| := by
    exact_mod_cast Int.zpow_log_le_self one_lt_two some_size
  have high : |realOf x| < 2 ^ Int.log 2 |realOf x| * 2 := by
    rw [← zpow_add_one₀ two_ne_zero]
    exact_mod_cast Int.lt_zpow_succ_log_self one_lt_two |realOf x|
  generalize Int.log 2 |realOf x| = k at low high
  have short : realOf d.sqrt < 2 ^ k := by linarith
  by_cases tiny : k ≤ -75
  · have least := le_realOf_sqrt finite positive
    have power : (2 : ℝ) ^ k ≤ 2 ^ (-75 : ℤ) := zpow_le_zpow_right₀ one_le_two tiny
    linarith
  · have double : (2 : ℝ) ^ (k + k) ≤ realOf x * realOf x := by
      rw [zpow_add₀ two_ne_zero, ← abs_mul_abs_self (realOf x)]
      exact mul_self_le_mul_self (by positivity) low
    have inner : (2 : ℝ) ^ (k + k) ≤ realOf d := by
      rw [(realOf_mul square).1] at contains
      exact (le_rounded (by omega) double).trans contains
    have root : (2 : ℝ) ^ k ≤ √(realOf d) := by
      rw [Real.le_sqrt' (by positivity), sq, ← zpow_add₀ two_ne_zero]
      exact inner
    have long := le_rounded (by omega) root
    rw [← realOf_sqrt finite] at long
    linarith

end HingedPanels.Single
