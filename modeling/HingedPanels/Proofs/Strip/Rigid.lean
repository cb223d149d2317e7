import HingedPanels.Proofs.Exact.Framed
import HingedPanels.Proofs.Strip.Hinged

/-!
Strips in exact arithmetic. Every panel keeps the shape of the seed, at rest and in motion. A panel that
moves keeps its pivot edge on its parent, and starts flat on it: turning back by the start angle in the
panel's own frame undoes the turn that was made in its parent's.
-/

namespace HingedPanels

section Exact

variable [Quantities]

namespace Panel

variable {panel base : Panel ℝ} {edge : Edge} {hinge : Hinge ℝ}

theorem HangsBy.exists_geometry_eq (hangs : panel.HangsBy base edge hinge) :
    ∃ h, base.rest.Frames edge h ∧
      ∀ phase, panel.geometry phase = h.turn base.rest (panel.angle phase - panel.window.startAngle) := by
  obtain ⟨h, frames, rest⟩ := Quad.turnAbout_eq_ok_iff.mp hangs.rest_eq
  have kept : hinge = h.turned (-panel.window.startAngle) := by
    have made := Quad.hinge_eq_ok_iff.mpr (frames.turn (-panel.window.startAngle))
    rw [← rest, hangs.frame_eq] at made
    exact Except.ok.inj made
  refine ⟨h, frames, fun phase => ?_⟩
  by_cases rests : phase = .settled
  · rw [rests, geometry_settled, rest, angle, hangs.endAngle_eq, zero_sub]
  · rw [geometry_of_hinge hangs.hinge_eq rests, kept, rest, frames.turn_turn, neg_add_eq_sub]

theorem HangsBy.congruent (hangs : panel.HangsBy base edge hinge) (phase : Phase ℝ) :
    (panel.geometry phase).Congruent base.rest := by
  obtain ⟨h, frames, same⟩ := hangs.exists_geometry_eq
  rw [same]
  exact frames.congruent_turn _

theorem HangsBy.endpoints_eq (hangs : panel.HangsBy base edge hinge) (phase : Phase ℝ) :
    (panel.geometry phase).endpoints edge = base.rest.endpoints edge := by
  obtain ⟨h, frames, same⟩ := hangs.exists_geometry_eq
  rw [same, frames.endpoints_turn]

theorem HangsBy.geometry_eq_of_angle (hangs : panel.HangsBy base edge hinge) {phase : Phase ℝ}
    (folded : panel.angle phase = panel.window.startAngle) : panel.geometry phase = base.rest := by
  obtain ⟨h, frames, same⟩ := hangs.exists_geometry_eq
  rw [same, folded, sub_self, frames.turn_zero]

theorem angle_phaseAt_startTime (pivots : panel.pivot = some edge)
    (ordered : panel.window.startTime < panel.window.endTime) :
    panel.angle (panel.phaseAt panel.window.startTime) = panel.window.startAngle := by
  have length : ¬ panel.window.endTime - panel.window.startTime ≤ 0 := not_le.mpr (sub_pos.mpr ordered)
  have bias : panel.window.bias panel.window.startTime = 0 := by
    unfold Window.bias Scalar.clampUnit
    dsimp only
    rw [if_neg length, sub_self, zero_div, if_neg (lt_irrefl _), if_neg (not_lt.mpr zero_le_one)]
  unfold phaseAt
  rw [pivots, if_neg (by simp), if_neg (lt_irrefl _), if_neg (not_le.mpr ordered), bias]
  unfold angle Window.angleAt
  dsimp only
  rw [zero_mul, add_zero]

end Panel

namespace Strip

variable {settings : Settings ℝ} {d : Description ℝ} {s : Strip ℝ}

theorem Hinged.congruent {seed : Quad ℝ} (hinged : s.Hinged seed) {i : Nat} {panel : Panel ℝ}
    (there : s.panels[i]? = some panel) (phase : Phase ℝ) : (panel.geometry phase).Congruent seed := by
  -- Parents have smaller numbers, so the shape of the seed is handed down the tree.
  induction i using Nat.strong_induction_on generalizing panel phase with
  | _ i ih =>
    by_cases first : i = 0
    · rcases hinged.root with ⟨root, there', _, _, _, free, _, pose⟩
      rw [first, there'] at there
      cases there
      rw [Panel.geometry_of_no_hinge free, pose]
      exact fun _ _ => rfl
    · rcases hinged.hangs there first with ⟨parent, base, _, _, _, _, _, lower, below, _, _, hangs⟩
      have handed := ih parent lower below .settled
      rw [Panel.geometry_settled] at handed
      exact fun j k => (hangs.congruent phase j k).trans (handed j k)

/-- The strips that are built move as rigid panels do: every pose has the corner distances of the placed
seed, a pivot edge stays where the parent's edge rests, and a panel lies flat on its parent until and when
it starts. -/
theorem rigid_of_build (built : Strip.build settings d = .ok s) :
    (∀ (i : Nat) (panel : Panel ℝ), s.panels[i]? = some panel → panel.rest.Congruent d.placedSeed ∧
      ∀ index time, (panel.sample index time).geometry.Congruent d.placedSeed) ∧
    ∀ (i : Nat) (panel : Panel ℝ), s.panels[i]? = some panel → i ≠ 0 → ∃ parent base edge, panel.parent = some parent ∧
      s.panels[parent]? = some base ∧ panel.pivot = some edge ∧
      (∀ index time, (panel.sample index time).geometry.endpoints edge = base.rest.endpoints edge) ∧
      panel.geometry .dormant = base.rest ∧
      (panel.window.startTime < panel.window.endTime →
        ∀ index, (panel.sample index panel.window.startTime).geometry = base.rest) := by
  have hinged := Strip.hinged_of_build built
  constructor
  · intro i panel there
    have rest := hinged.congruent there .settled
    rw [Panel.geometry_settled] at rest
    exact ⟨rest, fun _ time => hinged.congruent there (panel.phaseAt time)⟩
  · intro i panel there later
    rcases hinged.hangs there later with ⟨parent, base, edge, _, _, _, parent_eq, _, below, _, _, hangs⟩
    refine ⟨parent, base, edge, parent_eq, below, hangs.pivot_eq, ?_, ?_, ?_⟩
    · intro _ time
      exact hangs.endpoints_eq (panel.phaseAt time)
    · exact hangs.geometry_eq_of_angle rfl
    · intro ordered _
      exact hangs.geometry_eq_of_angle (Panel.angle_phaseAt_startTime hangs.pivot_eq ordered)

end Strip

theorem Panel.exists_ofPlan {seed : Quad ℝ} {material : UInt32} {built : Array (Panel ℝ)} {plan : Plan ℝ}
    {a : Attachment} {base : Panel ℝ} {h : Hinge ℝ} (attached : plan.attachment = some a)
    (below : built[a.parent]? = some base) (frames : base.rest.Frames a.edge h) :
    ∃ panel, ofPlan seed material built plan = .ok panel := by
  have turned := Quad.hinge_eq_ok_iff.mpr (frames.turn (a.face.restTurn plan.target))
  unfold ofPlan
  rw [attached]
  dsimp only
  rw [below]
  dsimp only [Option.map_some, Option.getD_some]
  rw [frames.turnAbout_eq]
  dsimp only
  rw [turned]
  exact ⟨_, rfl⟩

theorem Matrix4.apply_identity (p : Vec3 ℝ) : (identity : Matrix4 ℝ).apply p = p := by
  rcases p with ⟨x, y, z⟩
  change (⟨(1 * x + 0 * y + 0 * z + 0) * (1 / (0 * x + 0 * y + 0 * z + 1)),
    (0 * x + 1 * y + 0 * z + 0) * (1 / (0 * x + 0 * y + 0 * z + 1)),
    (0 * x + 0 * y + 1 * z + 0) * (1 / (0 * x + 0 * y + 0 * z + 1))⟩ : Vec3 ℝ) = _
  norm_num

theorem Description.placedSeed_eq_seed {d : Description ℝ} (unturned : d.transform = .identity) (unmoved : d.offset = 0) :
    d.placedSeed = d.seed := by
  simp only [placedSeed, unturned, unmoved, Quad.transform, Quad.translate, Quad.map, Matrix4.apply_identity,
    Vec3.shift_zero]

theorem Description.placedSeed_standard (grammar : String) :
    { Description.standard with grammar : Description ℝ }.placedSeed = Quad.unitSquare :=
  placedSeed_eq_seed rfl rfl

end Exact

theorem Token.ofGrammar_wall : Token.ofGrammar "A0" = .ok [.fold .a .front .quarter 0] := by
  cbv

theorem Strip.rigid_of_build_wall :
    let _ := Quantities.radians
    ∃ (s : Strip ℝ) (panel : Panel ℝ),
      Strip.build ⟨1, 0, 1⟩ { Description.standard with grammar := "A0" } = .ok s ∧ s.panels[1]? = some panel ∧
        panel.rest.Congruent Quad.unitSquare := by
  intro _
  let settings : Settings ℝ := ⟨1, 0, 1⟩
  let d : Description ℝ := { Description.standard with grammar := "A0" }
  let root : Panel ℝ := ⟨d.placedSeed, none, .still 0, 0, none, 0, none, none, none⟩
  let plan : Plan ℝ := .fold settings ⟨0, 0⟩ 0 .a .front .quarter 0
  have planned : Plan.ofGrammar settings "A0" (0 : ℝ) = .ok #[.root 0, plan] :=
    (Plan.ofGrammar_eq_run Token.ofGrammar_wall settings (0 : ℝ)).trans rfl
  have frames := Quad.frames_unitSquare Quantities.tolerance_radians_le_one
  rw [← Description.placedSeed_standard "A0"] at frames
  obtain ⟨panel, made⟩ : ∃ panel, Panel.ofPlan d.placedSeed 0 #[root] plan = .ok panel :=
    Panel.exists_ofPlan rfl rfl frames
  have panels : d.panels settings = .ok #[root, panel] := by
    have assembled : Panel.assemble d.placedSeed 0 #[root] [plan] = .ok #[root, panel] := by
      unfold Panel.assemble
      rw [made]
      rfl
    unfold Description.panels
    rw [show Plan.ofGrammar settings d.grammar d.startTime = _ from planned]
    change (Panel.assemble d.placedSeed 0 #[root] [plan]).mapError Fault.degenerate = _
    rw [assembled]
    rfl
  have built : Strip.build settings d = .ok ⟨d.label, #[root, panel]⟩ := by
    unfold Strip.build
    rw [panels]
  refine ⟨⟨d.label, #[root, panel]⟩, panel, built, rfl, ?_⟩
  rw [← Description.placedSeed_standard "A0"]
  exact ((rigid_of_build built).1 1 panel rfl).1

end HingedPanels
