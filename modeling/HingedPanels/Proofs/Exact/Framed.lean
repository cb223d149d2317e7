import HingedPanels.Proofs.Exact.Turning

namespace HingedPanels

variable [Quantities]

namespace Vec3

variable {v : Vec3 ℝ}

theorem unit_of_dot_self (one : v.dot v = 1) : v.unit = v := by
  have length : v.length = 1 := by
    rw [Vec3.length, one]
    exact Real.sqrt_one
  rw [unit, length]
  simp [mul_def]

theorem div_length_dot_self (positive : 0 < v.length) : (v / v.length).dot (v / v.length) = 1 := by
  rw [div_def, mul_dot, dot_mul, ← length_mul_length]
  field_simp

theorem mul_div_cancel {r : ℝ} (nonzero : r ≠ 0) : v * r / r = v := by
  rcases v with ⟨x, y, z⟩
  simp only [div_def, mul_def, mk.injEq]
  refine ⟨?_, ?_, ?_⟩ <;> field_simp

theorem eq_div_length_mul (positive : 0 < v.length) : v = v / v.length * v.length := by
  rcases v with ⟨x, y, z⟩
  simp only [div_def, mul_def, mk.injEq]
  refine ⟨?_, ?_, ?_⟩ <;> field_simp

theorem length_mul_of_dot_self (one : v.dot v = 1) {r : ℝ} (nonneg : 0 ≤ r) : (v * r).length = r := by
  rw [Vec3.length, mul_dot, dot_mul, one, mul_one]
  exact Real.sqrt_mul_self nonneg

end Vec3

namespace Quad.Frames

variable {q : Quad ℝ} {e : Edge} {h : Hinge ℝ} (frames : q.Frames e h)

include frames

theorem orthonormal : h.Orthonormal := by
  have along := Vec3.div_length_dot_self (pos_of_isSound frames.sound_run)
  rw [← frames.along_eq] at along
  have upward := Vec3.div_length_dot_self (pos_of_isSound frames.sound_side)
  rw [← frames.upward_eq] at upward
  have square : h.along.dot h.upward = 0 := by
    rw [frames.upward_eq, Vec3.div_def, Vec3.dot_mul, Vec3.dot_cross_left, mul_zero]
  refine ⟨along, upward, square, ?_⟩
  rw [frames.outward_eq]
  apply Vec3.unit_of_dot_self
  rw [Vec3.cross_dot_cross, along, upward, square]
  norm_num

theorem second_sub_anchor : q.corner e.second - h.anchor = h.along * (q.corner e.second - h.anchor).length := by
  rw [frames.along_eq]
  exact Vec3.eq_div_length_mul (pos_of_isSound frames.sound_run)

theorem third_shares : (q.corner e.third - h.anchor).dot h.upward = 0 ∧
    (q.corner e.third - h.anchor).dot h.outward =
      -(h.along.cross (q.corner e.third - h.anchor)).length := by
  have positive := pos_of_isSound frames.sound_side
  constructor
  · rw [frames.upward_eq, Vec3.div_def, Vec3.dot_mul, Vec3.dot_cross_right, mul_zero]
  · rw [frames.orthonormal.outward_eq, Vec3.dot_cross_swap, frames.upward_eq, Vec3.div_def, Vec3.mul_dot,
      ← Vec3.length_mul_length]
    field_simp

theorem turn_first (angle : ℝ) : (h.turn q angle).corner e.first = h.anchor := by
  rw [Hinge.turn, corner_map, ← frames.anchor_eq]
  apply frames.orthonormal.turnPoint_eq_self <;> simp [Vec3.sub_def, Vec3.dot]

theorem turn_second (angle : ℝ) : (h.turn q angle).corner e.second = q.corner e.second := by
  have frame := frames.orthonormal
  rw [Hinge.turn, corner_map]
  apply frame.turnPoint_eq_self
  · rw [frames.second_sub_anchor, Vec3.mul_dot, frame.along_outward, mul_zero]
  · rw [frames.second_sub_anchor, Vec3.mul_dot, frame.along_upward, mul_zero]

theorem endpoints_turn (angle : ℝ) : (h.turn q angle).endpoints e = q.endpoints e := by
  rw [endpoints, endpoints, frames.turn_first, frames.turn_second, frames.anchor_eq]

theorem along_cross_turn_third (angle : ℝ) :
    h.along.cross ((h.turn q angle).corner e.third - h.anchor) =
      (h.turned angle).upward * (h.along.cross (q.corner e.third - h.anchor)).length := by
  obtain ⟨flat, inward⟩ := frames.third_shares
  have frame := frames.orthonormal
  rw [Hinge.turn, corner_map, h.turnPoint_sub_anchor, flat, inward, Vec3.cross_add, Vec3.cross_add,
    Vec3.cross_mul, Vec3.cross_mul, Vec3.cross_mul, frame.along_cross_outward, ← frame.outward_eq]
  simp only [Hinge.turned, Vec3.cross, Vec3.add_def, Vec3.mul_def, Vec3.mk.injEq]
  refine ⟨?_, ?_, ?_⟩ <;> ring

end Quad.Frames

theorem Hinge.Orthonormal.turned {h : Hinge ℝ} (frame : h.Orthonormal) (angle : ℝ) : (h.turned angle).Orthonormal := by
  have unit := Real.sin_sq_add_cos_sq angle
  constructor
  case along_along => exact frame.along_along
  case upward_upward =>
    simp only [Hinge.turned, Vec3.add_dot, Vec3.dot_add, Vec3.mul_dot, Vec3.dot_mul, frame.outward_outward,
      frame.upward_upward, frame.upward_outward, Vec3.dot_comm h.outward h.upward]
    linear_combination unit
  case along_upward =>
    simp only [Hinge.turned, Vec3.dot_add, Vec3.dot_mul, frame.along_outward, frame.along_upward]
    ring
  case outward_eq =>
    simp only [Hinge.turned, Vec3.cross_add, Vec3.cross_mul, frame.along_cross_outward, ← frame.outward_eq]
    simp only [Vec3.add_def, Vec3.mul_def, Vec3.mk.injEq]
    refine ⟨?_, ?_, ?_⟩ <;> ring

theorem Quad.Frames.turn {q : Quad ℝ} {e : Edge} {h : Hinge ℝ} (frames : q.Frames e h) (angle : ℝ) :
    (h.turn q angle).Frames e (h.turned angle) := by
  have frame := frames.orthonormal.turned angle
  have positive := pos_of_isSound frames.sound_side
  have along : (h.turned angle).along = h.along := rfl
  have anchor : (h.turned angle).anchor = h.anchor := rfl
  have side := frames.along_cross_turn_third angle
  have length : (h.along.cross ((h.turn q angle).corner e.third - h.anchor)).length =
      (h.along.cross (q.corner e.third - h.anchor)).length := by
    rw [side]
    exact Vec3.length_mul_of_dot_self frame.upward_upward positive.le
  constructor
  case edge_eq => exact frames.edge_eq
  case anchor_eq => exact (frames.turn_first angle).symm
  case sound_run =>
    rw [anchor, frames.turn_second]
    exact frames.sound_run
  case along_eq =>
    rw [anchor, along, frames.turn_second]
    exact frames.along_eq
  case sound_side =>
    rw [anchor, along, length]
    exact frames.sound_side
  case upward_eq =>
    rw [anchor, along, length, side]
    exact (Vec3.mul_div_cancel positive.ne').symm
  case outward_eq =>
    rw [← frame.outward_eq]
    exact (Vec3.unit_of_dot_self frame.outward_outward).symm

namespace Quad

variable {q : Quad ℝ} {e : Edge} {h : Hinge ℝ}

theorem Frames.turn_zero (frames : q.Frames e h) : h.turn q 0 = q := by
  have same := frames.orthonormal.turnPoint_zero
  simp only [Hinge.turn, map, same]

/-- Turns about one edge add up, each made in the frame that the one before it has left. -/
theorem Frames.turn_turn (frames : q.Frames e h) (angle angle' : ℝ) :
    (h.turned angle).turn (h.turn q angle) angle' = h.turn q (angle + angle') := by
  have step := frames.orthonormal.turned_turnPoint angle angle'
  simp only [Hinge.turn, map, step]

def Congruent (q r : Quad ℝ) : Prop :=
  ∀ i j, (q.corner i - q.corner j).length = (r.corner i - r.corner j).length

theorem Frames.congruent_turn (frames : q.Frames e h) (angle : ℝ) : (h.turn q angle).Congruent q := by
  intro i j
  rw [Hinge.turn, corner_map, corner_map]
  exact frames.orthonormal.length_turn_sub angle _ _

theorem frames_unitSquare (small : Quantities.tolerance ≤ 1) :
    (unitSquare : Quad ℝ).Frames .a ⟨.a, 0, ⟨1, 0, 0⟩, ⟨0, -1, 0⟩, ⟨0, 0, 1⟩⟩ := by
  have second : (unitSquare : Quad ℝ).corner Edge.a.second - 0 = ⟨1, 0, 0⟩ := by
    change (⟨0 + 1 - 0, 0 + 0 - 0, 0 + 0 - 0⟩ : Vec3 ℝ) = _
    norm_num
  have third : (unitSquare : Quad ℝ).corner Edge.a.third - 0 = ⟨1, 1, 0⟩ := by
    change (⟨0 + 1 + 0 - 0, 0 + 0 + 1 - 0, 0 + 0 + 0 - 0⟩ : Vec3 ℝ) = _
    norm_num
  have side : (⟨1, 0, 0⟩ : Vec3 ℝ).cross ⟨1, 1, 0⟩ = ⟨0, 0, 1⟩ := by
    norm_num [Vec3.cross]
  have outward : (⟨1, 0, 0⟩ : Vec3 ℝ).cross ⟨0, 0, 1⟩ = ⟨0, -1, 0⟩ := by
    norm_num [Vec3.cross]
  have sound {v : Vec3 ℝ} (one : v.dot v = 1) : IsSound v.length ∧ v = v / v.length := by
    have length : v.length = 1 := by
      rw [Vec3.length, one]
      exact Real.sqrt_one
    rw [length]
    refine ⟨⟨rfl, not_lt.mpr small⟩, ?_⟩
    rw [Vec3.div_def, inv_one, Vec3.scale_one]
  obtain ⟨sound_run, along⟩ := sound (v := ⟨1, 0, 0⟩) (by norm_num [Vec3.dot])
  obtain ⟨sound_side, upward⟩ := sound (v := ⟨0, 0, 1⟩) (by norm_num [Vec3.dot])
  constructor
  case edge_eq => rfl
  case anchor_eq => rfl
  case sound_run => rwa [second]
  case along_eq => rwa [second]
  case sound_side => rwa [third, side]
  case upward_eq => rwa [third, side]
  case outward_eq =>
    rw [outward]
    exact (Vec3.unit_of_dot_self (by norm_num [Vec3.dot])).symm

end Quad

end HingedPanels
