import HingedPanels.Placement
import HingedPanels.Proofs.Exact.Space
import HingedPanels.Proofs.Hinge.Frames
import HingedPanels.Proofs.Plan.Reversed

/-!
Motions of space in exact arithmetic. A motion keeps all lengths and angles; a rotation keeps the sense of a
cross product as well and a reflection reverses it. So a moved quad has the moved hinge, and turning about it
is the moved turn, under a reflection by the opposite angle.
-/

namespace HingedPanels

variable [Quantities]

namespace Vec3

variable (a b c : Vec3 ℝ) (r : ℝ)

theorem mul_div_comm (r' : ℝ) : a * r / r' = a / r' * r := by
  rw [div_def, div_def, mul_mul, mul_mul, mul_comm]

theorem dot_cross_rotate : a.dot (b.cross c) = b.dot (c.cross a) := by
  simp only [dot, cross]
  ring

theorem sum_cross_sum (v w : Vec3 ℝ) : (a * v.x + b * v.y + c * v.z).cross (a * w.x + b * w.y + c * w.z) =
    b.cross c * (v.cross w).x + c.cross a * (v.cross w).y + a.cross b * (v.cross w).z := by
  simp only [cross, add_def, mul_def, mk.injEq]
  refine ⟨?_, ?_, ?_⟩ <;> ring

theorem sum_mul : (a + b + c) * r = a * r + b * r + c * r := by
  simp only [add_def, mul_def, mk.injEq]
  refine ⟨?_, ?_, ?_⟩ <;> ring

/-- Of three directions that are square to each other each is the cross product of the other two, up to the
sense in which the three follow one another. -/
theorem cross_eq_of_orthonormal {a b c : Vec3 ℝ} {s : Sense} (a_a : a.dot a = 1) (b_b : b.dot b = 1)
    (a_b : a.dot b = 0) (b_c : b.dot c = 0) (c_a : c.dot a = 0) (sense : c.dot (a.cross b) = s.sign) :
    a.cross b = c * s.sign := by
  have parts := expand a b c
  rw [a_a, b_b, a_b, dot_comm c b, b_c, c_a, sense] at parts
  have same : c = a.cross b * s.sign := by
    rcases c with ⟨x, y, z⟩
    simpa [add_def, mul_def] using parts
  rw [same, mul_mul, s.sign_mul_sign, scale_one]

end Vec3

def Vec4.direction (v : Vec4 ℝ) : Vec3 ℝ := ⟨v.x, v.y, v.z⟩

namespace Matrix4

/-- The matrix carries the axes to directions that are square to each other and of length one, and that follow
one another in the given sense. Its last row is that of a map that keeps parallels. -/
structure Rigid (m : Matrix4 ℝ) (s : Sense) : Prop where
  parallel : m.c0.w = 0 ∧ m.c1.w = 0 ∧ m.c2.w = 0 ∧ m.c3.w = 1
  x_x : m.c0.direction.dot m.c0.direction = 1
  y_y : m.c1.direction.dot m.c1.direction = 1
  z_z : m.c2.direction.dot m.c2.direction = 1
  x_y : m.c0.direction.dot m.c1.direction = 0
  y_z : m.c1.direction.dot m.c2.direction = 0
  z_x : m.c2.direction.dot m.c0.direction = 0
  sense : m.c2.direction.dot (m.c0.direction.cross m.c1.direction) = s.sign

noncomputable def linear (m : Matrix4 ℝ) (v : Vec3 ℝ) : Vec3 ℝ :=
  m.c0.direction * v.x + m.c1.direction * v.y + m.c2.direction * v.z

variable (m : Matrix4 ℝ) (v w : Vec3 ℝ) (r : ℝ)

theorem linear_add : m.linear (v + w) = m.linear v + m.linear w := by
  simp only [linear, Vec3.add_def, Vec3.mul_def, Vec3.mk.injEq]
  refine ⟨?_, ?_, ?_⟩ <;> ring

theorem linear_mul : m.linear (v * r) = m.linear v * r := by
  simp only [linear, Vec3.add_def, Vec3.mul_def, Vec3.mk.injEq]
  refine ⟨?_, ?_, ?_⟩ <;> ring

theorem linear_div : m.linear (v / r) = m.linear v / r := by
  rw [Vec3.div_def, linear_mul, Vec3.div_def]

namespace Rigid

variable {m : Matrix4 ℝ} {s : Sense} (rigid : m.Rigid s)

include rigid

theorem apply_eq (p : Vec3 ℝ) : m.apply p = m.linear p + m.c3.direction := by
  obtain ⟨x, y, z, w⟩ := rigid.parallel
  change (⟨m.c0.x * p.x + m.c1.x * p.y + m.c2.x * p.z + m.c3.x, m.c0.y * p.x + m.c1.y * p.y + m.c2.y * p.z + m.c3.y,
    m.c0.z * p.x + m.c1.z * p.y + m.c2.z * p.z + m.c3.z⟩ : Vec3 ℝ) *
      (1 / (m.c0.w * p.x + m.c1.w * p.y + m.c2.w * p.z + m.c3.w)) = _
  rw [x, y, z, w]
  simp [linear, Vec4.direction, Vec3.add_def, Vec3.mul_def]

theorem apply_sub (p q : Vec3 ℝ) : m.apply p - m.apply q = m.linear (p - q) := by
  rw [rigid.apply_eq, rigid.apply_eq]
  simp only [linear, Vec3.add_def, Vec3.sub_def, Vec3.mul_def, Vec3.mk.injEq]
  refine ⟨?_, ?_, ?_⟩ <;> ring

theorem apply_add (p : Vec3 ℝ) : m.apply (p + v) = m.apply p + m.linear v := by
  rw [rigid.apply_eq, rigid.apply_eq, linear_add]
  simp only [Vec3.add_def, Vec3.mk.injEq]
  refine ⟨?_, ?_, ?_⟩ <;> ring

theorem linear_dot : (m.linear v).dot (m.linear w) = v.dot w := by
  simp only [linear, Vec3.add_dot, Vec3.dot_add, Vec3.mul_dot, Vec3.dot_mul, rigid.x_x, rigid.y_y, rigid.z_z,
    rigid.x_y, rigid.y_z, rigid.z_x, Vec3.dot_comm m.c1.direction m.c0.direction,
    Vec3.dot_comm m.c2.direction m.c1.direction, Vec3.dot_comm m.c0.direction m.c2.direction]
  simp only [Vec3.dot]
  ring

theorem length_linear : (m.linear v).length = v.length := Vec3.length_eq_of_dot_eq (rigid.linear_dot v v)

theorem unit_linear : (m.linear v).unit = m.linear v.unit := by
  rw [Vec3.unit, rigid.length_linear, Vec3.unit, linear_mul]

theorem linear_cross : (m.linear v).cross (m.linear w) = m.linear (v.cross w) * s.sign := by
  have sense := rigid.sense
  have sense' := (Vec3.dot_cross_rotate m.c1.direction m.c2.direction m.c0.direction).trans sense
  have sense'' := (Vec3.dot_cross_rotate m.c0.direction m.c1.direction m.c2.direction).trans sense'
  rw [linear, linear, Vec3.sum_cross_sum, linear, Vec3.sum_mul,
    Vec3.cross_eq_of_orthonormal rigid.x_x rigid.y_y rigid.x_y rigid.y_z rigid.z_x sense,
    Vec3.cross_eq_of_orthonormal rigid.z_z rigid.x_x rigid.z_x rigid.x_y rigid.y_z sense',
    Vec3.cross_eq_of_orthonormal rigid.y_y rigid.z_z rigid.y_z rigid.z_x rigid.x_y sense'']
  simp only [Vec3.mul_mul, mul_comm s.sign]

theorem length_linear_mul_sign : (m.linear v * s.sign).length = v.length := by
  apply Vec3.length_eq_of_dot_eq
  rw [Vec3.mul_dot, Vec3.dot_mul, ← mul_assoc, s.sign_mul_sign, one_mul, rigid.linear_dot]

end Rigid

/-- The reflection in the plane through `o` that is square to `n`. -/
noncomputable def mirror (o n : Vec3 ℝ) : Matrix4 ℝ :=
  let m := n + n
  ⟨⟨1 - m.x * n.x, -(m.x * n.y), -(m.x * n.z), 0⟩, ⟨-(m.y * n.x), 1 - m.y * n.y, -(m.y * n.z), 0⟩,
    ⟨-(m.z * n.x), -(m.z * n.y), 1 - m.z * n.z, 0⟩, ⟨o.dot m * n.x, o.dot m * n.y, o.dot m * n.z, 1⟩⟩

section Mirror

variable {o n : Vec3 ℝ}

theorem mirror_rigid (unit : n.dot n = 1) : (mirror o n).Rigid .reversed := by
  unfold Vec3.dot at unit
  constructor
  case parallel => exact ⟨rfl, rfl, rfl, rfl⟩
  all_goals simp only [mirror, Vec4.direction, Vec3.add_def, Vec3.dot, Vec3.cross, Sense.sign]
  case x_x => linear_combination 4 * n.x * n.x * unit
  case y_y => linear_combination 4 * n.y * n.y * unit
  case z_z => linear_combination 4 * n.z * n.z * unit
  case x_y => linear_combination 4 * n.x * n.y * unit
  case y_z => linear_combination 4 * n.y * n.z * unit
  case z_x => linear_combination 4 * n.z * n.x * unit
  case sense => linear_combination -2 * unit

theorem apply_mirror (unit : n.dot n = 1) (p : Vec3 ℝ) : (mirror o n).apply p = p - n * (2 * (p - o).dot n) := by
  rw [(mirror_rigid unit).apply_eq]
  simp only [mirror, linear, Vec4.direction, Vec3.dot, Vec3.add_def, Vec3.sub_def, Vec3.mul_def, Vec3.mk.injEq]
  refine ⟨?_, ?_, ?_⟩ <;> ring

theorem transform_mirror (unit : n.dot n = 1) {q : Quad ℝ} (planar : ∀ i, (q.corner i - o).dot n = 0) :
    q.transform (mirror o n) = q := by
  have still (i : Fin 4) : (mirror o n).apply (q.corner i) = q.corner i := by
    rw [apply_mirror unit, planar i]
    simp [Vec3.sub_def, Vec3.mul_def]
  rcases q with ⟨c0, c1, c2, c3⟩
  rw [Quad.transform, Quad.map, Quad.mk.injEq]
  exact ⟨still 0, still 1, still 2, still 3⟩

end Mirror

end Matrix4

namespace Hinge

/-- The hinge after a motion of space. A reflection leaves the third direction on the other side. -/
noncomputable def moved (m : Matrix4 ℝ) (s : Sense) (h : Hinge ℝ) : Hinge ℝ :=
  ⟨h.edge, m.apply h.anchor, m.linear h.along, m.linear h.outward, m.linear h.upward * s.sign⟩

theorem moved_turnPoint {m : Matrix4 ℝ} {s : Sense} (rigid : m.Rigid s) (h : Hinge ℝ) (angle : ℝ) (p : Vec3 ℝ) :
    (h.moved m s).turnPoint (s.sign * angle) (m.apply p) = m.apply (h.turnPoint angle p) := by
  have along : (m.apply p - m.apply h.anchor).dot (m.linear h.along) = (p - h.anchor).dot h.along := by
    rw [rigid.apply_sub, rigid.linear_dot]
  have outward : (m.apply p - m.apply h.anchor).dot (m.linear h.outward) = (p - h.anchor).dot h.outward := by
    rw [rigid.apply_sub, rigid.linear_dot]
  have upward : (m.apply p - m.apply h.anchor).dot (m.linear h.upward * s.sign) =
      s.sign * (p - h.anchor).dot h.upward := by
    rw [rigid.apply_sub, Vec3.dot_mul, rigid.linear_dot]
  -- The sense comes twice into each share: with the third direction and with the sine.
  have square := s.sign_mul_sign
  have share : (p - h.anchor).dot h.outward * Real.cos (s.sign * angle) +
      s.sign * (p - h.anchor).dot h.upward * Real.sin (s.sign * angle) =
      (p - h.anchor).dot h.outward * Real.cos angle + (p - h.anchor).dot h.upward * Real.sin angle := by
    rw [s.cos_sign_mul, s.sin_sign_mul]
    linear_combination (p - h.anchor).dot h.upward * Real.sin angle * square
  have share' : s.sign * (s.sign * (p - h.anchor).dot h.upward * Real.cos (s.sign * angle) -
      (p - h.anchor).dot h.outward * Real.sin (s.sign * angle)) =
      (p - h.anchor).dot h.upward * Real.cos angle - (p - h.anchor).dot h.outward * Real.sin angle := by
    rw [s.cos_sign_mul, s.sin_sign_mul]
    linear_combination ((p - h.anchor).dot h.upward * Real.cos angle -
      (p - h.anchor).dot h.outward * Real.sin angle) * square
  simp only [turnPoint, moved, along, outward, upward, Trig.cos, Trig.sin, rigid.apply_add, Matrix4.linear_mul,
    Vec3.mul_mul, share, share']

theorem moved_turn {m : Matrix4 ℝ} {s : Sense} (rigid : m.Rigid s) (h : Hinge ℝ) (q : Quad ℝ) (angle : ℝ) :
    (h.moved m s).turn (q.transform m) (s.sign * angle) = (h.turn q angle).transform m := by
  simp only [turn, Quad.transform, Quad.map, h.moved_turnPoint rigid]

end Hinge

namespace Quad

variable {m : Matrix4 ℝ} {s : Sense} (rigid : m.Rigid s)

include rigid

theorem hinge_transform (q : Quad ℝ) (e : Edge) : (q.transform m).hinge e = (q.hinge e).map (Hinge.moved m s) := by
  have outward (a b : Vec3 ℝ) : (m.linear a).cross (m.linear b * s.sign) = m.linear (a.cross b) := by
    rw [Vec3.cross_mul, rigid.linear_cross, Vec3.mul_mul, s.sign_mul_sign, Vec3.scale_one]
  simp only [hinge, transform, corner_map, rigid.apply_sub, rigid.length_linear, ← Matrix4.linear_div,
    rigid.linear_cross, rigid.length_linear_mul_sign, Vec3.mul_div_comm, outward, rigid.unit_linear]
  split
  · split <;> rfl
  · rfl

theorem turnAbout_transform (q : Quad ℝ) (e : Edge) (angle : ℝ) :
    (q.transform m).turnAbout e (s.sign * angle) = (q.turnAbout e angle).map (·.transform m) := by
  rw [turnAbout, turnAbout, hinge_transform rigid]
  cases q.hinge e with
  | error fault => rfl
  | ok h => exact congrArg Except.ok (h.moved_turn rigid q angle)

end Quad

end HingedPanels
