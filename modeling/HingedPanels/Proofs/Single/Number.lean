import HingedPanels.Proofs.Single.Arithmetic
import HingedPanels.Proofs.Single.Packing

/-!
Numbers of single precision by their values. Their order is the order of the values, and what an operation
makes of finite numbers is the nearest number to the exact result.
-/

namespace HingedPanels.Single

open Float.Model (Format UnpackedFloat)
open Float.Model.UnpackedFloat (Sign pack unpack)

def unpacked (x : Float32) : UnpackedFloat := x.toModel.unpack

/-- The value of a number. NaN has none, and counts as zero here. -/
noncomputable def valueOf (x : Float32) : EReal := value (unpacked x)

noncomputable def realOf (x : Float32) : ℝ := real (unpacked x)

noncomputable def nearest (x : ℝ) : EReal := clip (rounded x)

theorem nearest_mono {x y : ℝ} (below : x ≤ y) : nearest x ≤ nearest y := clip_mono (rounded_mono below)

theorem canonical_unpacked (x : Float32) : Canonical (unpacked x) := by
  rw [unpacked, Float32.Model.unpack, unpack_eq_ofFields]
  exact (ofFields_spec _ _ _).1

theorem settle_unpacked (x : Float32) : settle (unpacked x) = unpacked x := by
  rw [unpacked, Float32.Model.unpack, unpack_eq_ofFields]
  exact (ofFields_spec _ _ _).2

theorem valueOf_eq_realOf {x : Float32} (finite : x.isFinite = true) : valueOf x = realOf x :=
  value_of_isFinite finite

theorem nearest_realOf {x : Float32} (finite : x.isFinite = true) : nearest (realOf x) = valueOf x := by
  have settled : value (settle (unpacked x)) = clip (real (unpacked x)) :=
    value_settle finite (canonical_unpacked x)
  rw [nearest, realOf, rounded_real (canonical_unpacked x), ← settled, settle_unpacked, valueOf]

theorem le_iff_valueOf {a b : Float32} :
    a ≤ b ↔ a.isNaN = false ∧ b.isNaN = false ∧ valueOf a ≤ valueOf b := by
  have same : a ≤ b ↔ (unpacked a).le (unpacked b) = true := decide_eq_true_iff
  rw [same]
  exact le_iff_value (canonical_unpacked a) (canonical_unpacked b)

theorem lt_iff_valueOf {a b : Float32} :
    a < b ↔ a.isNaN = false ∧ b.isNaN = false ∧ valueOf a < valueOf b := by
  have same : a < b ↔ (unpacked a).lt (unpacked b) = true := decide_eq_true_iff
  rw [same]
  exact lt_iff_value (canonical_unpacked a) (canonical_unpacked b)

theorem not_lt_iff_le {a b : Float32} (number : a.isNaN = false) (number' : b.isNaN = false) : ¬ a < b ↔ b ≤ a := by
  rw [lt_iff_valueOf, le_iff_valueOf]
  constructor
  · intro apart
    exact ⟨number', number, not_lt.mp fun below => apart ⟨number, number', below⟩⟩
  · rintro ⟨_, _, above⟩ ⟨_, _, below⟩
    exact above.not_gt below

theorem not_le_iff_lt {a b : Float32} (number : a.isNaN = false) (number' : b.isNaN = false) : ¬ a ≤ b ↔ b < a := by
  rw [← not_lt_iff_le number' number, not_not]

theorem number_of_finite {x : Float32} (finite : x.isFinite = true) : x.isNaN = false := by
  change (unpacked x).isFinite = true at finite
  change (unpacked x).isNaN = false
  generalize unpacked x = u at finite
  cases u with
  | notANumber => cases finite
  | infinity | zero | finite => rfl

theorem number_left {a b : Float32} (below : a ≤ b) : a.isNaN = false := (le_iff_valueOf.mp below).1

theorem number_right {a b : Float32} (below : a ≤ b) : b.isNaN = false := (le_iff_valueOf.mp below).2.1

theorem le_refl_single {a : Float32} (number : a.isNaN = false) : a ≤ a :=
  le_iff_valueOf.mpr ⟨number, number, le_rfl⟩

theorem le_trans_single {a b c : Float32} (below : a ≤ b) (below' : b ≤ c) : a ≤ c := by
  rw [le_iff_valueOf] at *
  exact ⟨below.1, below'.2.1, below.2.2.trans below'.2.2⟩

/-- What an operation packs is read back as the value nearest to its exact result. -/
theorem Rounds.valueOf_eq {u : UnpackedFloat} {x : ℝ} (rounds : Rounds u x) {r : Float32}
    (packed : unpacked r = unpack Format.binary32 (pack Format.binary32 u)) :
    r.isNaN = false ∧ valueOf r = nearest x := by
  rw [unpack_pack rounds.canonical] at packed
  constructor
  · have number : u.isNaN = false := by
      have finite := rounds.finite
      cases u with
      | notANumber => cases finite
      | infinity | zero | finite => rfl
    have settled := settle_isNaN number
    rwa [← packed] at settled
  · rw [valueOf, packed, value_settle rounds.finite rounds.canonical, rounds.real_eq, nearest]

theorem unpacked_add (a b : Float32) :
    unpacked (a + b) = unpack Format.binary32 (pack Format.binary32
      (UnpackedFloat.add Format.binary32 (unpacked a) (unpacked b))) := rfl

theorem unpacked_div (a b : Float32) :
    unpacked (a / b) = unpack Format.binary32 (pack Format.binary32
      (UnpackedFloat.div Format.binary32 (unpacked a) (unpacked b))) := rfl

theorem unpacked_abs (a : Float32) :
    unpacked a.abs = unpack Format.binary32 (pack Format.binary32 (unpacked a).abs) := rfl

theorem valueOf_add {a b : Float32} (finite : a.isFinite = true) (finite' : b.isFinite = true) :
    (a + b).isNaN = false ∧ valueOf (a + b) = nearest (realOf a + realOf b) :=
  (add_spec finite finite' (canonical_unpacked a) (canonical_unpacked b)).valueOf_eq (unpacked_add a b)

theorem valueOf_div {a b : Float32} (finite : a.isFinite = true) (finite' : b.isFinite = true)
    (nonzero : realOf b ≠ 0) : (a / b).isNaN = false ∧ valueOf (a / b) = nearest (realOf a / realOf b) :=
  (div_spec finite finite' nonzero).valueOf_eq (unpacked_div a b)

@[simp] theorem valueOf_zero : valueOf 0 = 0 := rfl

theorem finite_or_infinite {x : Float32} (number : x.isNaN = false) :
    x.isFinite = true ∨ ∃ sign, unpacked x = .infinity sign :=
  finite_or_infinity number

theorem unpacked_of_bot_lt {x : Float32} {sign : Sign} (infinite : unpacked x = .infinity sign)
    (above : ⊥ < valueOf x) : unpacked x = .infinity .positive := by
  cases sign with
  | negative =>
    rw [valueOf, infinite] at above
    exact absurd above (lt_irrefl _)
  | positive => exact infinite

theorem valueOf_eq_top {x : Float32} {u : UnpackedFloat} (infinite : u = .infinity .positive)
    (packed : unpacked x = unpack Format.binary32 (pack Format.binary32 u)) :
    x.isNaN = false ∧ valueOf x = ⊤ := by
  rw [infinite] at packed
  have settled : unpacked x = .infinity .positive := packed.trans (unpack_packedInfinity .positive)
  constructor
  · change (unpacked x).isNaN = false
    rw [settled]
    rfl
  · rw [valueOf, settled]
    rfl

theorem le_add_of_nonneg {x d : Float32} (number : x.isNaN = false) (above : ⊥ < valueOf x) (nonneg : 0 ≤ d) :
    x ≤ x + d := by
  obtain ⟨_, number', nonneg⟩ := le_iff_valueOf.mp nonneg
  rw [valueOf_zero] at nonneg
  have above' : ⊥ < valueOf d := EReal.bot_lt_zero.trans_le nonneg
  rw [le_iff_valueOf]
  rcases finite_or_infinite number with finite | ⟨sign, infinite⟩
  · rcases finite_or_infinite number' with finite' | ⟨sign', infinite'⟩
    · obtain ⟨sum_number, sum⟩ := valueOf_add finite finite'
      refine ⟨number, sum_number, ?_⟩
      rw [valueOf_eq_realOf finite'] at nonneg
      rw [sum, ← nearest_realOf finite]
      exact nearest_mono (le_add_of_nonneg_right (EReal.coe_nonneg.mp nonneg))
    · have infinite_sum : UnpackedFloat.add Format.binary32 (unpacked x) (unpacked d) = .infinity .positive := by
        rw [unpacked_of_bot_lt infinite' above']
        exact add_infinity_right number above
      obtain ⟨sum_number, sum⟩ := valueOf_eq_top infinite_sum (unpacked_add x d)
      exact ⟨number, sum_number, sum ▸ le_top⟩
  · have infinite_sum : UnpackedFloat.add Format.binary32 (unpacked x) (unpacked d) = .infinity .positive := by
      rw [unpacked_of_bot_lt infinite above]
      exact add_infinity_left number' above'
    obtain ⟨sum_number, sum⟩ := valueOf_eq_top infinite_sum (unpacked_add x d)
    exact ⟨number, sum_number, sum ▸ le_top⟩

theorem bot_lt_of_le {x y : Float32} (above : ⊥ < valueOf x) (below : x ≤ y) : ⊥ < valueOf y :=
  above.trans_le (le_iff_valueOf.mp below).2.2

theorem nearest_zero : nearest 0 = 0 := by
  have same : nearest (realOf 0) = valueOf 0 := nearest_realOf rfl
  rwa [valueOf_zero] at same

theorem nonneg_abs {x : Float32} (number : x.isNaN = false) : 0 ≤ x.abs := by
  rw [le_iff_valueOf, valueOf_zero]
  rcases finite_or_infinite number with finite | ⟨sign, infinite⟩
  · obtain ⟨abs_number, same⟩ := (abs_spec finite (canonical_unpacked x)).valueOf_eq (unpacked_abs x)
    refine ⟨rfl, abs_number, ?_⟩
    rw [same, ← nearest_zero]
    exact nearest_mono (abs_nonneg _)
  · have infinite_abs : (unpacked x).abs = .infinity .positive := by
      rw [infinite]
      rfl
    obtain ⟨abs_number, same⟩ := valueOf_eq_top infinite_abs (unpacked_abs x)
    exact ⟨rfl, abs_number, same ▸ le_top⟩

/-- The quotient of what is not negative by a positive number, which may be so small that the quotient is
too large. -/
theorem nonneg_div {x y : Float32} (nonneg : 0 ≤ x) (finite : y.isFinite = true) (positive : 0 < y) :
    0 ≤ x / y := by
  obtain ⟨_, number, nonneg⟩ := le_iff_valueOf.mp nonneg
  obtain ⟨_, _, positive⟩ := lt_iff_valueOf.mp positive
  rw [valueOf_zero] at nonneg positive
  rw [valueOf_eq_realOf finite] at positive
  have positive := EReal.coe_pos.mp positive
  rw [le_iff_valueOf, valueOf_zero]
  rcases finite_or_infinite number with finite' | ⟨sign, infinite⟩
  · obtain ⟨quotient_number, quotient⟩ := valueOf_div finite' finite positive.ne'
    refine ⟨rfl, quotient_number, ?_⟩
    rw [valueOf_eq_realOf finite'] at nonneg
    have exact_nonneg : 0 ≤ realOf x / realOf y := div_nonneg (EReal.coe_nonneg.mp nonneg) positive.le
    rw [quotient, ← nearest_zero]
    exact nearest_mono exact_nonneg
  · have infinite_quotient : UnpackedFloat.div Format.binary32 (unpacked x) (unpacked y) = .infinity .positive := by
      rw [unpacked_of_bot_lt infinite (EReal.bot_lt_zero.trans_le nonneg)]
      exact div_infinity finite positive
    obtain ⟨quotient_number, quotient⟩ := valueOf_eq_top infinite_quotient (unpacked_div x y)
    exact ⟨rfl, quotient_number, quotient ▸ le_top⟩

end HingedPanels.Single
