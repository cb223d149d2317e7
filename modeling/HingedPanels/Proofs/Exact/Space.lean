import HingedPanels.Hinge
import Mathlib

/-!
Space in exact arithmetic. The operations are those of the real numbers and the two functions of an angle
are the real ones; the quantities that folding fixes may be any, as long as the tolerance is positive.
-/

namespace HingedPanels

/-- The fixed quantities of folding as real numbers. -/
class Quantities where
  quarterTurn : ℝ
  halfTurn : ℝ
  tolerance : ℝ
  tolerance_pos : 0 < tolerance

/-- Right and straight angles as they are, and lengths below a millionth as too short. -/
noncomputable abbrev Quantities.radians : Quantities := ⟨Real.arccos 0, Real.pi, ((1000000 : ℕ) : ℝ)⁻¹, by positivity⟩

theorem Quantities.tolerance_radians_le_one : radians.tolerance ≤ 1 := by
  change ((1000000 : ℕ) : ℝ)⁻¹ ≤ 1
  norm_num

noncomputable instance [Quantities] : Scalar ℝ where
  sqrt := Real.sqrt
  abs x := |x|
  isFinite _ := true
  quarterTurn := Quantities.quarterTurn
  halfTurn := Quantities.halfTurn
  tolerance := Quantities.tolerance
  decLt := inferInstance
  decLe := inferInstance

noncomputable instance : Trig ℝ := ⟨Real.sin, Real.cos⟩

variable [Quantities]

theorem pos_of_isSound {length : ℝ} (sound : IsSound length) : 0 < length :=
  Quantities.tolerance_pos.trans_le (not_lt.mp sound.2)

namespace Vec3

variable (a b c v : Vec3 ℝ) (r : ℝ)

theorem add_def : a + b = ⟨a.x + b.x, a.y + b.y, a.z + b.z⟩ := rfl
theorem sub_def : a - b = ⟨a.x - b.x, a.y - b.y, a.z - b.z⟩ := rfl
theorem mul_def : v * r = ⟨v.x * r, v.y * r, v.z * r⟩ := rfl

theorem dot_comm : a.dot b = b.dot a := by
  unfold dot
  ring

theorem add_dot : (a + b).dot c = a.dot c + b.dot c := by
  simp only [dot, add_def]
  ring

theorem sub_dot : (a - b).dot c = a.dot c - b.dot c := by
  simp only [dot, sub_def]
  ring

theorem mul_dot : (v * r).dot a = r * v.dot a := by
  simp only [dot, mul_def]
  ring

theorem dot_add : c.dot (a + b) = c.dot a + c.dot b := by
  rw [dot_comm, add_dot, dot_comm a, dot_comm b]

theorem dot_mul : a.dot (v * r) = r * a.dot v := by
  rw [dot_comm, mul_dot, dot_comm]

theorem cross_add : a.cross (b + c) = a.cross b + a.cross c := by
  simp only [cross, add_def, mk.injEq]
  refine ⟨?_, ?_, ?_⟩ <;> ring

theorem cross_mul : a.cross (v * r) = a.cross v * r := by
  simp only [cross, mul_def, mk.injEq]
  refine ⟨?_, ?_, ?_⟩ <;> ring

theorem dot_cross_left : a.dot (a.cross b) = 0 := by
  simp only [dot, cross]
  ring

theorem dot_cross_right : b.dot (a.cross b) = 0 := by
  simp only [dot, cross]
  ring

theorem dot_cross_swap : b.dot (a.cross c) = -(c.dot (a.cross b)) := by
  simp only [dot, cross]
  ring

theorem cross_dot_cross : (a.cross b).dot (a.cross b) = a.dot a * b.dot b - a.dot b * a.dot b := by
  simp only [dot, cross]
  ring

theorem cross_cross_self : a.cross (a.cross b) = a * a.dot b + b * -a.dot a := by
  simp only [dot, cross, add_def, mul_def, mk.injEq]
  refine ⟨?_, ?_, ?_⟩ <;> ring

theorem expand : v * (a.dot a * b.dot b - a.dot b * a.dot b) =
    a * (v.dot a * b.dot b - v.dot b * a.dot b) + a.cross b * v.dot (a.cross b) +
      b * (v.dot b * a.dot a - v.dot a * a.dot b) := by
  simp only [dot, cross, add_def, mul_def, mk.injEq]
  refine ⟨?_, ?_, ?_⟩ <;> ring

theorem mul_mul (r' : ℝ) : v * r * r' = v * (r * r') := by
  simp only [mul_def, mul_assoc]

theorem sub_sub_sub : a - c - (b - c) = a - b := by
  simp only [sub_def, mk.injEq]
  refine ⟨?_, ?_, ?_⟩ <;> ring

theorem scale_one : v * (1 : ℝ) = v := by
  simp only [mul_def, mul_one]

theorem shift_zero : v + 0 = v := by
  change (⟨v.x + 0, v.y + 0, v.z + 0⟩ : Vec3 ℝ) = v
  simp only [add_zero]

theorem div_def : v / r = v * r⁻¹ := rfl

theorem sub_left_injective {a b : Vec3 ℝ} (same : a - c = b - c) : a = b := by
  rcases a with ⟨x, y, z⟩
  rcases b with ⟨x', y', z'⟩
  simp only [sub_def, mk.injEq, sub_left_inj] at same ⊢
  exact same

theorem dot_self_nonneg : 0 ≤ v.dot v :=
  add_nonneg (add_nonneg (mul_self_nonneg _) (mul_self_nonneg _)) (mul_self_nonneg _)

theorem length_mul_length : v.length * v.length = v.dot v := Real.mul_self_sqrt (dot_self_nonneg v)

theorem length_eq_of_dot_eq {v w : Vec3 ℝ} (same : v.dot v = w.dot w) : v.length = w.length := by
  rw [length, length, same]

end Vec3

end HingedPanels
