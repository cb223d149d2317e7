import HingedPanels.Proofs.Exact.Space
import HingedPanels.Proofs.Hinge.Frames

namespace HingedPanels

variable [Quantities]

/-- Three directions that are square to each other and of length one. The third is the cross product of
the other two. -/
structure Hinge.Orthonormal (h : Hinge ℝ) : Prop where
  along_along : h.along.dot h.along = 1
  upward_upward : h.upward.dot h.upward = 1
  along_upward : h.along.dot h.upward = 0
  outward_eq : h.outward = h.along.cross h.upward

noncomputable def Hinge.turned (h : Hinge ℝ) (angle : ℝ) : Hinge ℝ :=
  ⟨h.edge, h.anchor, h.along, h.outward * Real.cos angle + h.upward * -Real.sin angle,
    h.outward * Real.sin angle + h.upward * Real.cos angle⟩

namespace Hinge.Orthonormal

variable {h : Hinge ℝ} (frame : h.Orthonormal)

include frame

theorem along_outward : h.along.dot h.outward = 0 := by
  rw [frame.outward_eq, Vec3.dot_cross_left]

theorem upward_outward : h.upward.dot h.outward = 0 := by
  rw [frame.outward_eq, Vec3.dot_cross_right]

theorem outward_outward : h.outward.dot h.outward = 1 := by
  rw [frame.outward_eq, Vec3.cross_dot_cross, frame.along_along, frame.upward_upward, frame.along_upward]
  norm_num

theorem along_cross_outward : h.along.cross h.outward = h.upward * (-1 : ℝ) := by
  rw [frame.outward_eq, Vec3.cross_cross_self, frame.along_upward, frame.along_along]
  simp [Vec3.add_def, Vec3.mul_def]

theorem expand (v : Vec3 ℝ) :
    h.along * v.dot h.along + h.outward * v.dot h.outward + h.upward * v.dot h.upward = v := by
  have parts := Vec3.expand h.along h.upward v
  rw [frame.along_along, frame.upward_upward, frame.along_upward, ← frame.outward_eq] at parts
  norm_num at parts
  rw [Vec3.scale_one] at parts
  exact parts.symm

theorem shares (x y z : ℝ) :
    (h.along * x + h.outward * y + h.upward * z).dot h.along = x ∧
      (h.along * x + h.outward * y + h.upward * z).dot h.outward = y ∧
      (h.along * x + h.outward * y + h.upward * z).dot h.upward = z := by
  simp only [Vec3.add_dot, Vec3.mul_dot, frame.along_along, frame.outward_outward, frame.upward_upward,
    frame.along_outward, frame.along_upward, frame.upward_outward, Vec3.dot_comm h.outward h.along,
    Vec3.dot_comm h.upward h.along, Vec3.dot_comm h.outward h.upward]
  refine ⟨?_, ?_, ?_⟩ <;> ring

theorem dot_self_eq (v : Vec3 ℝ) :
    v.dot v = v.dot h.along * v.dot h.along + v.dot h.outward * v.dot h.outward + v.dot h.upward * v.dot h.upward := by
  nth_rewrite 2 [← frame.expand v]
  rw [Vec3.dot_add, Vec3.dot_add, Vec3.dot_mul, Vec3.dot_mul, Vec3.dot_mul]

theorem eq_of_shares {v w : Vec3 ℝ} (along : v.dot h.along = w.dot h.along)
    (outward : v.dot h.outward = w.dot h.outward) (upward : v.dot h.upward = w.dot h.upward) : v = w := by
  rw [← frame.expand v, along, outward, upward, frame.expand]

end Hinge.Orthonormal

namespace Hinge

variable (h : Hinge ℝ) (angle : ℝ)

theorem turnPoint_sub_anchor (p : Vec3 ℝ) : h.turnPoint angle p - h.anchor =
    h.along * (p - h.anchor).dot h.along +
      h.outward * ((p - h.anchor).dot h.outward * Real.cos angle + (p - h.anchor).dot h.upward * Real.sin angle) +
      h.upward * ((p - h.anchor).dot h.upward * Real.cos angle - (p - h.anchor).dot h.outward * Real.sin angle) := by
  unfold turnPoint
  simp only [Vec3.add_def, Vec3.sub_def, Vec3.mul_def, Vec3.mk.injEq, Trig.sin, Trig.cos]
  refine ⟨?_, ?_, ?_⟩ <;> ring

end Hinge

namespace Hinge.Orthonormal

variable {h : Hinge ℝ} (frame : h.Orthonormal) (angle : ℝ)

include frame

theorem turn_shares (p : Vec3 ℝ) :
    (h.turnPoint angle p - h.anchor).dot h.along = (p - h.anchor).dot h.along ∧
      (h.turnPoint angle p - h.anchor).dot h.outward =
        (p - h.anchor).dot h.outward * Real.cos angle + (p - h.anchor).dot h.upward * Real.sin angle ∧
      (h.turnPoint angle p - h.anchor).dot h.upward =
        (p - h.anchor).dot h.upward * Real.cos angle - (p - h.anchor).dot h.outward * Real.sin angle := by
  rw [h.turnPoint_sub_anchor]
  exact frame.shares _ _ _

theorem length_turn_sub (p q : Vec3 ℝ) :
    (h.turnPoint angle p - h.turnPoint angle q).length = (p - q).length := by
  obtain ⟨along, outward, upward⟩ := frame.turn_shares angle p
  obtain ⟨along', outward', upward'⟩ := frame.turn_shares angle q
  apply Vec3.length_eq_of_dot_eq
  rw [frame.dot_self_eq, frame.dot_self_eq (p - q)]
  simp only [Vec3.sub_dot] at *
  rw [sub_eq_iff_eq_add] at along outward upward along' outward' upward'
  rw [along, along', outward, outward', upward, upward']
  linear_combination ((p.dot h.outward - q.dot h.outward) ^ 2 + (p.dot h.upward - q.dot h.upward) ^ 2) *
    Real.sin_sq_add_cos_sq angle

theorem turnPoint_eq_self {p : Vec3 ℝ} (outward : (p - h.anchor).dot h.outward = 0)
    (upward : (p - h.anchor).dot h.upward = 0) : h.turnPoint angle p = p := by
  obtain ⟨same, out, up⟩ := frame.turn_shares angle p
  rw [outward, upward] at out up
  apply Vec3.sub_left_injective h.anchor
  apply frame.eq_of_shares same
  · rw [out, outward]
    ring
  · rw [up, upward]
    ring

theorem turnPoint_zero (p : Vec3 ℝ) : h.turnPoint 0 p = p := by
  obtain ⟨same, out, up⟩ := frame.turn_shares 0 p
  rw [Real.cos_zero, Real.sin_zero] at out up
  apply Vec3.sub_left_injective h.anchor
  apply frame.eq_of_shares same
  · rw [out]
    ring
  · rw [up]
    ring

/-- A turn in the turned frame continues the turn that made it. -/
theorem turned_turnPoint (angle' : ℝ) (p : Vec3 ℝ) :
    (h.turned angle).turnPoint angle' (h.turnPoint angle p) = h.turnPoint (angle + angle') p := by
  obtain ⟨same, out, up⟩ := frame.turn_shares angle p
  have anchor : (h.turned angle).anchor = h.anchor := rfl
  have along : (h.turned angle).along = h.along := rfl
  have outward : (h.turnPoint angle p - h.anchor).dot (h.turned angle).outward = (p - h.anchor).dot h.outward := by
    rw [turned, Vec3.dot_add, Vec3.dot_mul, Vec3.dot_mul, out, up]
    linear_combination (p - h.anchor).dot h.outward * Real.sin_sq_add_cos_sq angle
  have upward : (h.turnPoint angle p - h.anchor).dot (h.turned angle).upward = (p - h.anchor).dot h.upward := by
    rw [turned, Vec3.dot_add, Vec3.dot_mul, Vec3.dot_mul, out, up]
    linear_combination (p - h.anchor).dot h.upward * Real.sin_sq_add_cos_sq angle
  apply Vec3.sub_left_injective h.anchor
  have step := (h.turned angle).turnPoint_sub_anchor angle' (h.turnPoint angle p)
  rw [anchor, along, outward, upward, same] at step
  rw [step, h.turnPoint_sub_anchor, Real.cos_add, Real.sin_add]
  simp only [turned, Vec3.add_def, Vec3.mul_def, Vec3.mk.injEq]
  refine ⟨?_, ?_, ?_⟩ <;> ring

end Hinge.Orthonormal

end HingedPanels
