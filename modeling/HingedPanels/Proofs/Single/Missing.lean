import HingedPanels.Proofs.Single.Share

namespace HingedPanels.Single

open Float.Model (Format UnpackedFloat)
open Float.Model.UnpackedFloat (Sign pack unpack)

variable {a b x : Float32}

/-- One of the two is no number, or both are infinite on the same side. -/
def NoDifference (a b : Float32) : Prop :=
  a.isNaN = true ∨ b.isNaN = true ∨ ∃ sign, unpacked a = .infinity sign ∧ unpacked b = .infinity sign

theorem unpack_pack_of_not_finite {u : UnpackedFloat} (special : u.isFinite = false) :
    unpack Format.binary32 (pack Format.binary32 u) = u := by
  cases u with
  | zero | finite => cases special
  | notANumber | infinity => exact unpack_pack trivial

theorem sub_infinity_self (sign : Sign) :
    UnpackedFloat.sub Format.binary32 (.infinity sign) (.infinity sign) = .notANumber := by
  cases sign <;> rfl

theorem sub_infinity_apart {sign sign' : Sign} (apart : sign ≠ sign') :
    UnpackedFloat.sub Format.binary32 (.infinity sign) (.infinity sign') = .infinity sign := by
  cases sign <;> cases sign'
  · exact absurd rfl apart
  · rfl
  · rfl
  · exact absurd rfl apart

theorem isNaN_sub_special {u v : UnpackedFloat} (special : ¬ (u.isFinite = true ∧ v.isFinite = true)) :
    (UnpackedFloat.sub Format.binary32 u v).isFinite = false ∧
      ((UnpackedFloat.sub Format.binary32 u v).isNaN = true ↔
        u.isNaN = true ∨ v.isNaN = true ∨ ∃ sign, u = .infinity sign ∧ v = .infinity sign) := by
  cases u with
  | notANumber => simp [UnpackedFloat.sub, UnpackedFloat.isFinite, UnpackedFloat.isNaN]
  | infinity sign =>
    cases v with
    | infinity sign' =>
      by_cases same : sign = sign'
      · subst same
        simp [sub_infinity_self, UnpackedFloat.isFinite, UnpackedFloat.isNaN]
      · rw [sub_infinity_apart same]
        simpa [UnpackedFloat.isFinite, UnpackedFloat.isNaN] using Ne.symm same
    | notANumber | zero | finite => simp [UnpackedFloat.sub, UnpackedFloat.isFinite, UnpackedFloat.isNaN]
  | zero | finite =>
    cases v with
    | zero | finite => exact absurd ⟨rfl, rfl⟩ special
    | notANumber | infinity => simp [UnpackedFloat.sub, UnpackedFloat.isFinite, UnpackedFloat.isNaN]

theorem isNaN_sub_iff : (a - b).isNaN = true ↔ NoDifference a b := by
  by_cases finite : a.isFinite = true ∧ b.isFinite = true
  · have number := (valueOf_sub finite.1 finite.2).1
    constructor
    · intro missing
      rw [number] at missing
      cases missing
    · rintro (missing | missing | ⟨sign, infinite, _⟩)
      · rw [number_of_finite finite.1] at missing
        cases missing
      · rw [number_of_finite finite.2] at missing
        cases missing
      · have bounded : (unpacked a).isFinite = true := finite.1
        rw [infinite] at bounded
        cases bounded
  · obtain ⟨special, kinds⟩ := isNaN_sub_special (u := unpacked a) (v := unpacked b) finite
    change (unpacked (a - b)).isNaN = true ↔ _
    rw [unpacked_sub, unpack_pack_of_not_finite special]
    exact kinds

theorem unpacked_of_isNaN (missing : x.isNaN = true) : unpacked x = .notANumber := by
  change (unpacked x).isNaN = true at missing
  generalize unpacked x = u at missing
  cases u with
  | notANumber => rfl
  | infinity | zero | finite => cases missing

theorem isNaN_of_packed {r : Float32}
    (packed : unpacked r = unpack Format.binary32 (pack Format.binary32 .notANumber)) : r.isNaN = true := by
  rw [unpack_pack_of_not_finite rfl] at packed
  exact congrArg UnpackedFloat.isNaN packed

theorem isNaN_add_left (missing : a.isNaN = true) (b : Float32) : (a + b).isNaN = true := by
  have packed := unpacked_add a b
  rw [unpacked_of_isNaN missing] at packed
  exact isNaN_of_packed packed

theorem isNaN_add_right (a : Float32) (missing : b.isNaN = true) : (a + b).isNaN = true := by
  have packed := unpacked_add a b
  rw [unpacked_of_isNaN missing] at packed
  have none : UnpackedFloat.add Format.binary32 (unpacked a) .notANumber = .notANumber := by
    cases unpacked a <;> rfl
  rw [none] at packed
  exact isNaN_of_packed packed

theorem isNaN_mul_self (missing : x.isNaN = true) : (x * x).isNaN = true := by
  have packed := unpacked_mul x x
  rw [unpacked_of_isNaN missing] at packed
  exact isNaN_of_packed packed

theorem isNaN_sqrt (missing : x.isNaN = true) : x.sqrt.isNaN = true := by
  have packed := unpacked_sqrt x
  rw [unpacked_of_isNaN missing] at packed
  exact isNaN_of_packed packed

/-! ### Results that are not negative -/

theorem nonneg_of_nearest {r : ℝ} (nears : x.isNaN = false ∧ valueOf x = nearest r) (nonneg : 0 ≤ r) : 0 ≤ x := by
  rw [le_iff_valueOf, valueOf_zero, nears.2, ← nearest_zero]
  exact ⟨rfl, nears.1, nearest_mono nonneg⟩

theorem nonneg_of_eq_top (top : x.isNaN = false ∧ valueOf x = ⊤) : 0 ≤ x := by
  rw [le_iff_valueOf, valueOf_zero, top.2]
  exact ⟨rfl, top.1, le_top⟩

theorem bot_lt_of_nonneg (nonneg : 0 ≤ x) : ⊥ < valueOf x :=
  bot_lt_of_le (valueOf_zero ▸ EReal.bot_lt_zero) nonneg

theorem nonneg_mul_self (number : x.isNaN = false) : 0 ≤ x * x := by
  rcases finite_or_infinite number with finite | ⟨sign, infinite⟩
  · exact nonneg_of_nearest (valueOf_mul finite finite) (mul_self_nonneg _)
  · apply nonneg_of_eq_top
    apply valueOf_eq_top _ (unpacked_mul x x)
    rw [infinite]
    cases sign <;> rfl

theorem nonneg_add (nonneg : 0 ≤ a) (nonneg' : 0 ≤ b) : 0 ≤ a + b :=
  le_trans_single nonneg (le_add_of_nonneg (number_right nonneg) (bot_lt_of_nonneg nonneg) nonneg')

theorem nonneg_sqrt (nonneg : 0 ≤ x) : 0 ≤ x.sqrt := by
  have above := bot_lt_of_nonneg nonneg
  rcases finite_or_infinite (number_right nonneg) with finite | ⟨sign, infinite⟩
  · exact nonneg_of_nearest (valueOf_sqrt finite ((nonneg_iff_realOf finite).mp nonneg)) (Real.sqrt_nonneg _)
  · apply nonneg_of_eq_top
    apply valueOf_eq_top _ (unpacked_sqrt x)
    rw [unpacked_of_bot_lt infinite above]
    rfl

end HingedPanels.Single
