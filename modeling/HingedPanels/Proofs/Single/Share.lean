import HingedPanels.Proofs.Single.Range
import HingedPanels.Scalar

/-!
Shares of a span in single precision. Numbers that differ have a difference that is not rounded away, and the
quotient of a number by a larger one stays below one. Where exact arithmetic gives zero or one, so does
single precision.
-/

namespace HingedPanels.Single

open Float.Model (Format UnpackedFloat)
open Float.Model.UnpackedFloat (Sign pack unpack)

variable {a b c : Float32}

/-! ### Comparisons -/

theorem le_iff_realOf (finite : a.isFinite = true) (finite' : b.isFinite = true) : a ≤ b ↔ realOf a ≤ realOf b := by
  rw [le_iff_valueOf, valueOf_eq_realOf finite, valueOf_eq_realOf finite', EReal.coe_le_coe_iff]
  exact ⟨fun order => order.2.2, fun order => ⟨number_of_finite finite, number_of_finite finite', order⟩⟩

theorem lt_iff_realOf (finite : a.isFinite = true) (finite' : b.isFinite = true) : a < b ↔ realOf a < realOf b := by
  rw [lt_iff_valueOf, valueOf_eq_realOf finite, valueOf_eq_realOf finite', EReal.coe_lt_coe_iff]
  exact ⟨fun order => order.2.2, fun order => ⟨number_of_finite finite, number_of_finite finite', order⟩⟩

theorem nonneg_iff_realOf (finite : a.isFinite = true) : 0 ≤ a ↔ 0 ≤ realOf a := le_iff_realOf rfl finite

theorem nonpos_iff_realOf (finite : a.isFinite = true) : a ≤ 0 ↔ realOf a ≤ 0 := le_iff_realOf finite rfl

theorem pos_iff_realOf (finite : a.isFinite = true) : 0 < a ↔ 0 < realOf a := lt_iff_realOf rfl finite

theorem le_one_iff_realOf (finite : a.isFinite = true) : a ≤ 1 ↔ realOf a ≤ 1 := by
  rw [le_iff_realOf finite rfl, realOf_one]

theorem lt_one_iff_realOf (finite : a.isFinite = true) : a < 1 ↔ realOf a < 1 := by
  rw [lt_iff_realOf finite rfl, realOf_one]

/-! ### Differences -/

theorem sub_eq_add (a b : Float32) : a - b = a + -b := by
  have same : UnpackedFloat.sub Format.binary32 (unpacked a) (unpacked b) =
      UnpackedFloat.add Format.binary32 (unpacked a) (unpacked (-b)) := by
    rw [unpacked_neg, sub_eq_add_neg]
  exact congrArg (fun u => Float32.ofModel (Float32.Model.pack u)) same

theorem valueOf_sub (finite : a.isFinite = true) (finite' : b.isFinite = true) :
    (a - b).isNaN = false ∧ valueOf (a - b) = nearest (realOf a - realOf b) := by
  have finite' : (-b).isFinite = true := by rwa [isFinite_neg]
  have sum := valueOf_add finite finite'
  have same : realOf a + realOf (-b) = realOf a - realOf b := by
    rw [realOf_neg]
    ring
  rwa [same, ← sub_eq_add] at sum

theorem realOf_sub (finite : (a - b).isFinite = true) : realOf (a - b) = rounded (realOf a - realOf b) := by
  obtain ⟨left, right⟩ := finite_of_sub finite
  exact (realOf_of_nearest (valueOf_sub left right) finite).1

theorem exists_units (x : Float32) : ∃ n : ℤ, realOf x = n * 2 ^ (-149 : ℤ) := by
  have canonical := canonical_unpacked x
  rw [realOf]
  generalize unpacked x = u at canonical
  cases u with
  | notANumber | infinity | zero => exact ⟨0, by simp [real]⟩
  | finite sign m e positive =>
    obtain ⟨k, up⟩ := Int.le.dest canonical.least
    refine ⟨sign.apply (m * 2 ^ k), ?_⟩
    rw [real, factor_apply, ← up, zpow_add₀ two_ne_zero, zpow_natCast]
    push_cast
    ring

theorem least_le_sub (below : realOf a < realOf b) : 2 ^ (-149 : ℤ) ≤ realOf b - realOf a := by
  obtain ⟨m, units⟩ := exists_units a
  obtain ⟨n, units'⟩ := exists_units b
  have place : (0 : ℝ) < 2 ^ (-149 : ℤ) := by positivity
  rw [units, units', mul_lt_mul_iff_of_pos_right place] at below
  have apart : (1 : ℝ) ≤ n - m := by
    have whole : m + 1 ≤ n := by exact_mod_cast below
    have whole : ((m + 1 : ℤ) : ℝ) ≤ n := by exact_mod_cast whole
    push_cast at whole
    linarith
  rw [units, units', ← sub_mul]
  exact le_mul_of_one_le_left place.le apart

theorem rounded_sub_pos (below : realOf a < realOf b) : 0 < rounded (realOf b - realOf a) :=
  (by positivity : (0 : ℝ) < 2 ^ (-149 : ℤ)).trans_le (le_rounded (by norm_num) (least_le_sub below))

theorem isFinite_of_between {x : Float32} (number : x.isNaN = false) (above : ⊥ < valueOf x) (below : valueOf x < ⊤) :
    x.isFinite = true := by
  rcases finite_or_infinite number with finite | ⟨sign, infinite⟩
  · exact finite
  · rw [valueOf, unpacked_of_bot_lt infinite above] at below
    exact absurd below (lt_irrefl _)

theorem valueOf_eq_top_of_infinite {x : Float32} (number : x.isNaN = false) (above : ⊥ < valueOf x)
    (infinite : x.isFinite = false) : valueOf x = ⊤ := by
  by_contra below
  rw [isFinite_of_between number above (lt_top_iff_ne_top.mpr below)] at infinite
  cases infinite

theorem valueOf_sub_eq_top (number : a.isNaN = false) (top : valueOf a = ⊤) (finite : b.isFinite = true) :
    (a - b).isNaN = false ∧ valueOf (a - b) = ⊤ := by
  have finite' : (-b).isFinite = true := by rwa [isFinite_neg]
  have above : ⊥ < valueOf (-b) := by
    rw [valueOf_eq_realOf finite']
    exact EReal.bot_lt_coe _
  have infinite : unpacked a = .infinity .positive := by
    rcases finite_or_infinite number with finite'' | ⟨sign, infinite⟩
    · rw [valueOf_eq_realOf finite''] at top
      exact absurd top (EReal.coe_ne_top _)
    · exact unpacked_of_bot_lt infinite (top ▸ bot_lt_top)
  have sum : UnpackedFloat.add Format.binary32 (unpacked a) (unpacked (-b)) = .infinity .positive := by
    rw [infinite]
    exact add_infinity_left (number_of_finite finite') above
  rw [sub_eq_add]
  exact valueOf_eq_top sum (unpacked_add a (-b))

theorem sub_le_sub_single (finite : a.isFinite = true) (finite' : c.isFinite = true) (below : a ≤ b) :
    a - c ≤ b - c := by
  obtain ⟨_, number, below⟩ := le_iff_valueOf.mp below
  obtain ⟨number_ac, value_ac⟩ := valueOf_sub finite finite'
  rw [le_iff_valueOf]
  by_cases finite'' : b.isFinite = true
  · obtain ⟨number_bc, value_bc⟩ := valueOf_sub finite'' finite'
    rw [valueOf_eq_realOf finite, valueOf_eq_realOf finite'', EReal.coe_le_coe_iff] at below
    refine ⟨number_ac, number_bc, ?_⟩
    rw [value_ac, value_bc]
    exact nearest_mono (sub_le_sub_right below _)
  · rw [valueOf_eq_realOf finite] at below
    have top := valueOf_eq_top_of_infinite number ((EReal.bot_lt_coe _).trans_le below) (Bool.eq_false_iff.mpr finite'')
    obtain ⟨number_bc, value_bc⟩ := valueOf_sub_eq_top number top finite'
    exact ⟨number_ac, number_bc, value_bc ▸ le_top⟩

theorem sub_pos_single (finite : a.isFinite = true) (below : a < b) : 0 < b - a := by
  obtain ⟨_, number, below⟩ := lt_iff_valueOf.mp below
  rw [valueOf_eq_realOf finite] at below
  rw [lt_iff_valueOf, valueOf_zero]
  by_cases finite' : b.isFinite = true
  · obtain ⟨number', same⟩ := valueOf_sub finite' finite
    rw [valueOf_eq_realOf finite', EReal.coe_lt_coe_iff] at below
    have positive := rounded_sub_pos below
    refine ⟨rfl, number', ?_⟩
    rw [same, nearest, clip]
    split
    case isTrue => exact EReal.zero_lt_top
    case isFalse =>
      rw [if_neg (by linarith)]
      exact EReal.coe_pos.mpr positive
  · have top := valueOf_eq_top_of_infinite number ((EReal.bot_lt_coe _).trans below) (Bool.eq_false_iff.mpr finite')
    obtain ⟨number', same⟩ := valueOf_sub_eq_top number top finite
    exact ⟨rfl, number', same ▸ EReal.zero_lt_top⟩

/-! ### Quotients -/

theorem Fits.le_mul_of_lt {m n : ℕ} {e f : ℤ} (fits : Fits m e) (fits' : Fits n f)
    (below : (m : ℝ) * 2 ^ e < n * 2 ^ f) : (m : ℝ) * 2 ^ e ≤ n * 2 ^ f * (1 - 2 ^ (-24 : ℤ)) := by
  have order := fits.compares fits'
  rcases lt_trichotomy e f with finer | rfl | coarser
  · have full : (2 : ℝ) ^ 23 ≤ n := by exact_mod_cast fits'.full.resolve_right (by have := fits.least; omega)
    have short : (m : ℝ) ≤ 2 ^ 24 - 1 := by
      have short : ((m + 1 : ℕ) : ℝ) ≤ 2 ^ 24 := by exact_mod_cast fits.short
      push_cast at short
      linarith
    calc
      (m : ℝ) * 2 ^ e ≤ (2 ^ 24 - 1) * 2 ^ (f - 1) :=
        mul_le_mul short (zpow_le_zpow_right₀ one_le_two (by omega)) (by positivity) (by norm_num)
      _ = 2 ^ 23 * 2 ^ f * (1 - 2 ^ (-24 : ℤ)) := by
        rw [zpow_sub_one₀ two_ne_zero]
        norm_num
        ring
      _ ≤ n * 2 ^ f * (1 - 2 ^ (-24 : ℤ)) := by
        have share : (0 : ℝ) ≤ 1 - 2 ^ (-24 : ℤ) := by norm_num
        exact mul_le_mul_of_nonneg_right (mul_le_mul_of_nonneg_right full (by positivity)) share
  · have positive : (0 : ℝ) < 2 ^ e := by positivity
    rw [mul_lt_mul_iff_of_pos_right positive] at below
    have next : (m : ℝ) + 1 ≤ n := by exact_mod_cast below
    have short : (n : ℝ) ≤ 2 ^ 24 := by exact_mod_cast fits'.short.le
    have share : (n : ℝ) * 2 ^ (-24 : ℤ) ≤ 1 := by
      rw [zpow_neg, ← div_eq_mul_inv, div_le_one (by positivity)]
      exact_mod_cast short
    calc
      (m : ℝ) * 2 ^ e ≤ (n - n * 2 ^ (-24 : ℤ)) * 2 ^ e := mul_le_mul_of_nonneg_right (by linarith) positive.le
      _ = n * 2 ^ e * (1 - 2 ^ (-24 : ℤ)) := by ring
  · rw [Int.compare_eq_gt.mpr coarser] at order
    exact absurd below (lt_asymm order)

theorem realOf_le_of_lt (nonneg : 0 ≤ realOf a) (below : realOf a < realOf b) :
    realOf a ≤ realOf b * (1 - 2 ^ (-24 : ℤ)) := by
  have canonical := canonical_unpacked a
  have canonical' := canonical_unpacked b
  rw [realOf] at nonneg below ⊢
  rw [realOf] at below ⊢
  generalize unpacked a = u at *
  generalize unpacked b = v at *
  have share : (0 : ℝ) ≤ 1 - 2 ^ (-24 : ℤ) := by norm_num
  cases v with
  | notANumber | infinity | zero => exact absurd below nonneg.not_gt
  | finite sign' n f positive' =>
    cases sign' with
    | negative => exact absurd (below.trans (real_lt_zero positive')) nonneg.not_gt
    | positive =>
      cases u with
      | notANumber | infinity | zero => exact mul_nonneg (zero_lt_real positive').le share
      | finite sign m e positive =>
        cases sign with
        | negative => exact absurd (real_lt_zero positive) nonneg.not_gt
        | positive =>
          rw [real_positive, real_positive] at *
          exact Fits.le_mul_of_lt canonical canonical' below

/-- The quotient of a number by a larger one is not rounded up to one. -/
theorem rounded_div_lt_one (nonneg : 0 ≤ realOf a) (below : realOf a < realOf b) :
    rounded (realOf a / realOf b) < 1 := by
  have positive : 0 < realOf b := nonneg.trans_lt below
  have short : realOf a / realOf b ≤ ((2 ^ 24 - 1 : ℤ) : ℝ) * 2 ^ (-24 : ℤ) := by
    rw [div_le_iff₀ positive]
    have bound := realOf_le_of_lt nonneg below
    norm_num at bound ⊢
    linarith
  have exact_share : rounded (((2 ^ 24 - 1 : ℤ) : ℝ) * 2 ^ (-24 : ℤ)) = ((2 ^ 24 - 1 : ℤ) : ℝ) * 2 ^ (-24 : ℤ) :=
    rounded_mul_zpow (by norm_num) (by norm_num)
  calc
    rounded (realOf a / realOf b) ≤ ((2 ^ 24 - 1 : ℤ) : ℝ) * 2 ^ (-24 : ℤ) := (rounded_mono short).trans_eq exact_share
    _ < 1 := by norm_num

/-! ### Exact results -/

theorem eq_zero_of_rounds {u : UnpackedFloat} (rounds : Rounds u 0) : ∃ sign, u = .zero sign := by
  have same := rounds.real_eq
  rw [rounded_zero] at same
  cases u with
  | notANumber | infinity => cases rounds.finite
  | zero sign => exact ⟨sign, rfl⟩
  | finite sign m e positive =>
    cases sign with
    | negative => exact absurd same (real_lt_zero positive).ne
    | positive => exact absurd same (zero_lt_real positive).ne'

theorem eq_one_of_rounds {u : UnpackedFloat} (rounds : Rounds u 1) :
    u = .finite .positive (2 ^ 23) (-23) (by norm_num) := by
  have same := rounds.real_eq
  have one : rounded 1 = 1 := rounded_two_zpow (k := 0) (by norm_num)
  rw [one] at same
  have canonical := rounds.canonical
  cases u with
  | notANumber | infinity => cases rounds.finite
  | zero => exact absurd same zero_ne_one
  | finite sign m e positive =>
    cases sign with
    | negative => exact absurd same ((real_lt_zero positive).trans one_pos).ne
    | positive =>
      have order := Fits.compares canonical (⟨by norm_num, by norm_num, .inl le_rfl⟩ : Fits (2 ^ 23) (-23))
      rw [real_positive] at same
      have unit : ((2 ^ 23 : ℕ) : ℝ) * 2 ^ (-23 : ℤ) = 1 := by norm_num
      rw [same, unit] at order
      have equal : (compare e (-23)).then (compare m (2 ^ 23)) = .eq := by
        generalize (compare e (-23)).then (compare m (2 ^ 23)) = o at order
        cases o with
        | lt | gt => exact absurd order (lt_irrefl (1 : ℝ))
        | eq => rfl
      obtain ⟨place, mantissa⟩ := Ordering.then_eq_eq.mp equal
      exact finite_congr (Nat.compare_eq_eq.mp mantissa) (Int.compare_eq_eq.mp place)

/-- A number that operations on finite numbers give where the exact result is zero. -/
def IsZero (x : Float32) : Prop := x = 0 ∨ x = -0

theorem isZero_zero (sign : Sign) : IsZero (.ofModel (.pack (.zero sign))) := by
  cases sign with
  | negative => exact .inr rfl
  | positive => exact .inl rfl

theorem isZero_pack {u : UnpackedFloat} (rounds : Rounds u 0) : IsZero (.ofModel (.pack u)) := by
  rcases eq_zero_of_rounds rounds with ⟨sign, rfl⟩
  exact isZero_zero sign

theorem isZero_sub (finite : a.isFinite = true) (finite' : b.isFinite = true) (same : realOf a = realOf b) :
    IsZero (a - b) := by
  have finite' : (-b).isFinite = true := by rwa [isFinite_neg]
  have rounds : Rounds (UnpackedFloat.add Format.binary32 (unpacked a) (unpacked (-b))) (realOf a + realOf (-b)) :=
    add_spec finite finite' (canonical_unpacked a) (canonical_unpacked (-b))
  rw [realOf_neg, same, add_neg_cancel] at rounds
  rw [sub_eq_add]
  exact isZero_pack rounds

theorem isZero_div (zero : IsZero a) (finite : b.isFinite = true) (nonzero : realOf b ≠ 0) : IsZero (a / b) := by
  have finite' : a.isFinite = true := by rcases zero with rfl | rfl <;> rfl
  have none : realOf a = 0 := by rcases zero with rfl | rfl <;> rfl
  have rounds : Rounds (UnpackedFloat.div Format.binary32 (unpacked a) (unpacked b)) (realOf a / realOf b) :=
    div_spec finite' finite nonzero
  rw [none, zero_div] at rounds
  exact isZero_pack rounds

theorem div_eq_one (finite : a.isFinite = true) (finite' : b.isFinite = true) (same : realOf a = realOf b)
    (nonzero : realOf b ≠ 0) : a / b = 1 := by
  have rounds : Rounds (UnpackedFloat.div Format.binary32 (unpacked a) (unpacked b)) (realOf a / realOf b) :=
    div_spec finite finite' nonzero
  rw [same, div_self nonzero] at rounds
  change Float32.ofModel (.pack (UnpackedFloat.div Format.binary32 (unpacked a) (unpacked b))) = 1
  rw [eq_one_of_rounds rounds]
  rfl

theorem isZero_div_infinite (finite : a.isFinite = true) (number : b.isNaN = false) (infinite : b.isFinite = false) :
    IsZero (a / b) := by
  rcases finite_or_infinite number with finite' | ⟨sign, unpacked_b⟩
  · rw [finite'] at infinite
    cases infinite
  · have quotient : ∃ sign, UnpackedFloat.div Format.binary32 (unpacked a) (unpacked b) = .zero sign := by
      change (unpacked a).isFinite = true at finite
      rw [unpacked_b]
      generalize unpacked a = u at finite
      cases u with
      | notANumber | infinity => cases finite
      | zero | finite => exact ⟨_, rfl⟩
    rcases quotient with ⟨sign', quotient⟩
    change IsZero (.ofModel (.pack (UnpackedFloat.div Format.binary32 (unpacked a) (unpacked b))))
    rw [quotient]
    exact isZero_zero sign'

theorem isNaN_div_infinite (top : valueOf a = ⊤) (top' : valueOf b = ⊤) : (a / b).isNaN = true := by
  have infinite {x : Float32} (top : valueOf x = ⊤) : unpacked x = .infinity .positive := by
    rw [valueOf] at top
    generalize unpacked x = u at top
    cases u with
    | infinity sign =>
      cases sign with
      | negative => exact absurd top bot_ne_top
      | positive => rfl
    | finite => exact absurd top (EReal.coe_ne_top _)
    | notANumber | zero => exact absurd top EReal.zero_ne_top
  change (Float32.ofModel (.pack (UnpackedFloat.div Format.binary32 (unpacked a) (unpacked b)))).isNaN = true
  rw [infinite top, infinite top']
  rfl

/-! ### Shares -/

theorem clampUnit_of_mem {x : Float32} (nonneg : 0 ≤ x) (short : x ≤ 1) : Scalar.clampUnit x = x := by
  have number := number_left short
  unfold Scalar.clampUnit
  rw [if_neg ((not_lt_iff_le number rfl).mpr nonneg), if_neg ((not_lt_iff_le rfl number).mpr short)]

theorem clampUnit_of_isNaN {x : Float32} (missing : x.isNaN = true) : Scalar.clampUnit x = x := by
  have unordered {y : Float32} : ¬ x < y ∧ ¬ y < x := by
    rw [lt_iff_valueOf, lt_iff_valueOf, missing]
    simp
  unfold Scalar.clampUnit
  rw [if_neg unordered.1, if_neg unordered.2]

theorem clampUnit_of_isZero {x : Float32} (zero : IsZero x) : Scalar.clampUnit x = x := by
  rcases zero with rfl | rfl <;> rfl

theorem share_spec (finite : a.isFinite = true) (finite' : b.isFinite = true) (nonneg : 0 ≤ realOf a)
    (short : realOf a ≤ realOf b) (positive : 0 < realOf b) :
    (a / b).isFinite = true ∧ realOf (a / b) = rounded (realOf a / realOf b) ∧ Scalar.clampUnit (a / b) = a / b := by
  have nears := valueOf_div finite finite' positive.ne'
  have share_nonneg : 0 ≤ realOf a / realOf b := div_nonneg nonneg positive.le
  have share_short : realOf a / realOf b ≤ 1 := (div_le_one positive).mpr short
  have small : |realOf a / realOf b| ≤ 2 ^ 0 := by rwa [abs_of_nonneg share_nonneg, pow_zero]
  have within : Within 0 (a / b) := Within.of_nearest nears small (by norm_num)
  have same := (realOf_of_nearest nears within.finite).1
  refine ⟨within.finite, same, clampUnit_of_mem ?_ ?_⟩
  · rw [nonneg_iff_realOf within.finite, same]
    exact rounded_nonneg share_nonneg
  · have one := within.abs_le
    rw [pow_zero] at one
    exact (le_one_iff_realOf within.finite).mpr ((le_abs_self _).trans one)

end HingedPanels.Single
