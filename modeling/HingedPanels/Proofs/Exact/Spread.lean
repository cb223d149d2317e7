import HingedPanels.Proofs.Exact.Framed

namespace HingedPanels

variable [Quantities]

theorem tolerance_le_length (small : Quantities.tolerance ≤ 1) {v : Vec3 ℝ} (one : 1 ≤ v.dot v) :
    Quantities.tolerance ≤ v.length :=
  small.trans (Real.one_le_sqrt.mpr one)

theorem isSound_iff {length : ℝ} : IsSound length ↔ Quantities.tolerance ≤ length :=
  ⟨fun sound => not_lt.mp sound.2, fun long => ⟨rfl, not_lt.mpr long⟩⟩

namespace Vec3

theorem sub_mul_dot_self {a : Vec3 ℝ} (unit : a.dot a = 1) (b : Vec3 ℝ) (r : ℝ) :
    (b - a * r).dot (b - a * r) = (a.cross b).dot (a.cross b) + (a.dot b - r) * (a.dot b - r) := by
  rw [cross_dot_cross, unit]
  simp only [dot, sub_def, mul_def] at unit ⊢
  linear_combination (r * r) * unit

theorem length_cross_le {a : Vec3 ℝ} (unit : a.dot a = 1) (b : Vec3 ℝ) (r : ℝ) :
    (a.cross b).length ≤ (b - a * r).length := by
  apply Real.sqrt_le_sqrt
  rw [sub_mul_dot_self unit]
  exact le_add_of_nonneg_right (mul_self_nonneg _)

theorem length_sub_foot {a : Vec3 ℝ} (unit : a.dot a = 1) (b : Vec3 ℝ) :
    (b - a * a.dot b).length = (a.cross b).length := by
  apply length_eq_of_dot_eq
  rw [sub_mul_dot_self unit, sub_self, mul_zero, add_zero]

theorem two_mul_dot (a b : Vec3 ℝ) : 2 * a.dot b = a.dot a + b.dot b - (a - b).dot (a - b) := by
  simp only [dot, sub_def]
  ring

theorem length_div_cross_length_eq {a b a' b' : Vec3 ℝ} (positive : 0 < a.length) (first : a.length = a'.length)
    (second : b.length = b'.length) (third : (a - b).length = (a' - b').length) :
    ((a / a.length).cross b).length = ((a' / a'.length).cross b').length := by
  have unit := div_length_dot_self positive
  have unit' := div_length_dot_self (first ▸ positive)
  have square {v w : Vec3 ℝ} (same : v.length = w.length) : v.dot v = w.dot w := by
    rw [← length_mul_length, ← length_mul_length, same]
  have inner : a.dot b = a'.dot b' := by
    have twice := two_mul_dot a b
    have twice' := two_mul_dot a' b'
    rw [square first, square second, square third] at twice
    linarith
  apply length_eq_of_dot_eq
  rw [cross_dot_cross, cross_dot_cross, unit, unit', square second, div_def, div_def, mul_dot, mul_dot, inner, first]

end Vec3

namespace Quad

/-- The point of an edge's line that lies `t` times the edge from its first corner. -/
noncomputable def onLine (q : Quad ℝ) (e : Edge) (t : ℝ) : Vec3 ℝ :=
  q.corner e.first + (q.corner e.second - q.corner e.first) * t

/-- The edge is not shorter than the tolerance, and its third corner no nearer than that to any point of its line. -/
structure Spread (q : Quad ℝ) (e : Edge) : Prop where
  long : Quantities.tolerance ≤ (q.corner e.second - q.corner e.first).length
  wide : ∀ t, Quantities.tolerance ≤ (q.corner e.third - q.onLine e t).length

variable {q : Quad ℝ} {e : Edge}

theorem third_sub_onLine (q : Quad ℝ) (e : Edge) (r : ℝ) :
    q.corner e.third - q.onLine e (r * (q.corner e.second - q.corner e.first).length⁻¹) =
      q.corner e.third - q.corner e.first -
        (q.corner e.second - q.corner e.first) / (q.corner e.second - q.corner e.first).length * r := by
  rw [Vec3.div_def, Vec3.mul_mul, mul_comm r]
  simp only [onLine, Vec3.add_def, Vec3.sub_def, Vec3.mul_def, Vec3.mk.injEq]
  refine ⟨?_, ?_, ?_⟩ <;> ring

theorem spread_iff : q.Spread e ↔ ∃ h, q.Frames e h := by
  rw [exists_frames_iff, isSound_iff, isSound_iff]
  constructor
  · rintro ⟨long, wide⟩
    have unit := Vec3.div_length_dot_self (Quantities.tolerance_pos.trans_le long)
    rw [← Vec3.length_sub_foot unit, ← third_sub_onLine]
    exact ⟨long, wide _⟩
  · rintro ⟨long, side⟩
    have positive := Quantities.tolerance_pos.trans_le long
    have unit := Vec3.div_length_dot_self positive
    refine ⟨long, fun t => side.trans ?_⟩
    rw [← mul_inv_cancel_right₀ positive.ne' t, third_sub_onLine]
    exact Vec3.length_cross_le unit _ _

variable {r : Quad ℝ} {fault : DegenerateEdge ℝ}

theorem Congruent.length_side (same : q.Congruent r) (positive : 0 < (q.corner e.second - q.corner e.first).length) :
    (((q.corner e.second - q.corner e.first) / (q.corner e.second - q.corner e.first).length).cross
        (q.corner e.third - q.corner e.first)).length =
      (((r.corner e.second - r.corner e.first) / (r.corner e.second - r.corner e.first).length).cross
        (r.corner e.third - r.corner e.first)).length := by
  apply Vec3.length_div_cross_length_eq positive (same e.second e.first) (same e.third e.first)
  rw [Vec3.sub_sub_sub, Vec3.sub_sub_sub]
  exact same e.second e.third

theorem Congruent.hinge_error (same : q.Congruent r) (refused : r.hinge e = .error fault) :
    q.hinge e = .error fault := by
  have run := same e.second e.first
  unfold hinge at refused ⊢
  dsimp only at refused ⊢
  by_cases sound : IsSound (q.corner e.second - q.corner e.first).length
  · have side := same.length_side (pos_of_isSound sound)
    rw [if_pos (run ▸ sound), ← side] at refused
    rw [if_pos sound]
    split at refused
    case isTrue => cases refused
    case isFalse near => rw [if_neg near, refused]
  · rw [if_neg (run ▸ sound)] at refused
    rw [if_neg sound, run, refused]

noncomputable def faultAt (q : Quad ℝ) (e : Edge) : Option (DegenerateEdge ℝ) :=
  match q.hinge e with
  | .ok _ => none
  | .error fault => some fault

theorem faultAt_eq_some_iff : q.faultAt e = some fault ↔ q.hinge e = .error fault := by
  unfold faultAt
  cases q.hinge e <;> simp

theorem faultAt_eq_none_iff : q.faultAt e = none ↔ q.Spread e := by
  rw [spread_iff]
  unfold faultAt
  cases found : q.hinge e with
  | ok h => simpa using ⟨h, hinge_eq_ok_iff.mp found⟩
  | error fault =>
    have free : ¬ ∃ h, q.Frames e h := by
      rintro ⟨h, frames⟩
      rw [hinge_eq_ok_iff.mpr frames] at found
      cases found
    simpa using free

theorem Congruent.faultAt_eq (same : q.Congruent r) (e : Edge) : q.faultAt e = r.faultAt e := by
  apply Option.ext
  intro fault
  rw [faultAt_eq_some_iff, faultAt_eq_some_iff]
  exact ⟨Congruent.hinge_error fun i j => (same i j).symm, same.hinge_error⟩

end Quad

end HingedPanels
