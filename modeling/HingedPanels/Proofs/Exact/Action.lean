import HingedPanels.Proofs.Exact.Framed

namespace HingedPanels

namespace Quad

variable [Quantities] {q : Quad ℝ} {e : Edge} {h : Hinge ℝ}

theorem Frames.turnAbout_turn (frames : q.Frames e h) (angle angle' : ℝ) :
    (h.turn q angle).turnAbout e angle' = q.turnAbout e (angle + angle') := by
  rw [(frames.turn angle).turnAbout_eq, frames.turn_turn, frames.turnAbout_eq]

/-- The angles act on the quads with a hinge on an edge by turning them about it. The ends of the edge stay where
they are, and the quad keeps its shape. -/
theorem turnAbout_action (found : q.hinge e = .ok h) :
    q.turnAbout e 0 = .ok q ∧
    ∀ angle, ∃ r, q.turnAbout e angle = .ok r ∧ (∃ h', r.hinge e = .ok h') ∧
      (∀ angle', r.turnAbout e angle' = q.turnAbout e (angle + angle')) ∧ r.turnAbout e (-angle) = .ok q ∧
      r.endpoints e = q.endpoints e ∧ r.Congruent q := by
  have frames := hinge_eq_ok_iff.mp found
  have still : q.turnAbout e 0 = .ok q := by
    rw [frames.turnAbout_eq, frames.turn_zero]
  refine ⟨still, fun angle => ⟨h.turn q angle, frames.turnAbout_eq angle, ?_, ?_, ?_, ?_, ?_⟩⟩
  · exact ⟨h.turned angle, hinge_eq_ok_iff.mpr (frames.turn angle)⟩
  · exact frames.turnAbout_turn angle
  · rw [frames.turnAbout_turn, add_neg_cancel, still]
  · exact frames.endpoints_turn angle
  · exact frames.congruent_turn angle

end Quad

/-- The unit square with its last corner lifted out of the plane, turned and turned back. -/
theorem Quad.turnAbout_action_bent :
    let _ := Quantities.radians
    let bent : Quad ℝ := { unitSquare with c3 := ⟨0, 1, 1⟩ }
    ∃ h turned, bent.hinge .a = .ok h ∧ bent.turnAbout .a 1 = .ok turned ∧
      turned.turnAbout .a (-1) = .ok bent ∧ turned.Congruent bent := by
  intro _ bent
  have frames : bent.Frames .a _ := (frames_unitSquare Quantities.tolerance_radians_le_one).of_corners rfl rfl rfl
  have found := hinge_eq_ok_iff.mpr frames
  obtain ⟨turned, turns, _, _, back, _, same⟩ := (turnAbout_action found).2 1
  exact ⟨_, turned, found, turns, back, same⟩

end HingedPanels
