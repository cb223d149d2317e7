import HingedPanels.Proofs.Hinge.Sizes
import HingedPanels.Proofs.Strip.Cascade
import HingedPanels.Proofs.Strip.Hinged

namespace HingedPanels

open Single

def Quad.IsFinite (q : Quad Float32) : Prop := ∀ i, (q.corner i).isFinite = true

/-- The corners are at finite distances from the start of the edge. -/
def Quad.Reaches (q : Quad Float32) (e : Edge) : Prop :=
  ∀ i, (q.corner i - q.corner e.first).length.isFinite = true

instance (q : Quad Float32) (e : Edge) : Decidable (q.Reaches e) :=
  inferInstanceAs (Decidable (∀ i, (q.corner i - q.corner e.first).length.isFinite = true))

/-! ### Times and angles -/

theorem within_clampUnit {x : Float32} (number : x.isNaN = false) : Within 0 (Scalar.clampUnit x) := by
  unfold Scalar.clampUnit
  split
  case isTrue => exact within_zero (by decide +kernel) (by decide +kernel)
  case isFalse nonneg =>
    split
    case isTrue => exact within_zero (by decide +kernel) (by decide +kernel)
    case isFalse short =>
      have above := (not_lt_iff_le number rfl).mp nonneg
      exact within_zero (le_trans_single (by decide +kernel) above) ((not_lt_iff_le rfl number).mp short)

theorem Window.within_bias {w : Window Float32} {time : Float32} (ended : w.endTime.isNaN = false)
    (elapsed : (time - w.startTime).isFinite = true) : Within 0 (w.bias time) := by
  have started := (finite_of_sub elapsed).2
  have length := number_sub ended started
  unfold bias
  dsimp only
  split
  case isTrue =>
    split <;> exact within_zero (by decide +kernel) (by decide +kernel)
  case isFalse long =>
    exact within_clampUnit (number_div elapsed ((not_le_iff_lt length rfl).mp long))

theorem Turn.within_radians (turn : Turn) : Within 3 (turn.radians : Float32) := by
  have quarter : Within 2 (Scalar.quarterTurn : Float32) := by
    refine ⟨rfl, ?_⟩
    change |(1 : ℝ) * ((13176795 : ℕ) * 2 ^ (-23 : ℤ))| ≤ 2 ^ 2
    norm_num
  have half : Within 2 (Scalar.halfTurn : Float32) := by
    refine ⟨rfl, ?_⟩
    change |(1 : ℝ) * ((13176795 : ℕ) * 2 ^ (-22 : ℤ))| ≤ 2 ^ 2
    norm_num
  cases turn with
  | quarter => exact quarter.mono (by norm_num)
  | half => exact half.mono (by norm_num)
  | threeQuarter => exact half.add quarter (by norm_num)

theorem Machine.Reads.within_startAngle {settings : Settings Float32} {startTime : Float32} {front : List Token}
    {m : Machine Float32} (reads : Reads settings startTime front m) {i : Nat} {plan : Plan Float32}
    (there : m.plans[i]? = some plan) {a : Attachment} (hangs : plan.attachment = some a) :
    Within 3 plan.window.startAngle := by
  rcases reads.follows there hangs with ⟨_, _, follows⟩
  rcases reads.exists_fold there hangs with ⟨_, turn, _, _, _, records⟩
  rw [follows.startAngle_eq, records.target_eq]
  cases a.face with
  | front => exact turn.within_radians.neg
  | back => exact turn.within_radians

namespace Panel

variable {panel base : Panel Float32} {edge : Edge} {hinge : Hinge Float32} {time : Float32}

theorem eq_bias_of_phaseAt {bias : Float32} (moves : panel.phaseAt time = .unfolding bias) :
    bias = panel.window.bias time := by
  unfold phaseAt at moves
  split_ifs at moves
  cases moves
  rfl

theorem finite_angle (folded : Within 3 panel.window.startAngle) (flat : panel.window.endAngle = 0)
    (ended : panel.window.endTime.isNaN = false)
    (elapsed : ∀ bias, panel.phaseAt time = .unfolding bias → (time - panel.window.startTime).isFinite = true) :
    (panel.angle (panel.phaseAt time)).isFinite = true := by
  cases phase : panel.phaseAt time with
  | dormant => exact folded.1
  | settled =>
    rw [angle, flat]
    rfl
  | unfolding bias =>
    have share : Within 0 bias := by
      rw [eq_bias_of_phaseAt phase]
      exact Window.within_bias ended (elapsed bias phase)
    have rest : Within 3 (0 : Float32) := (within_zero (by decide +kernel) (by decide +kernel)).mono (by norm_num)
    rw [angle, Window.angleAt, flat]
    have turned := share.mul (rest.sub folded (by norm_num)) (by norm_num)
    exact ((folded.mono (by norm_num)).add turned (by norm_num)).1

variable [trig : Trig Float32]

theorem HangsBy.finite_corner (hangs : panel.HangsBy base edge hinge) {j : Fin 4} (seen : j ≠ edge.index + 3) :
    (panel.rest.corner j).isFinite = true := by
  obtain ⟨first, second, third⟩ := (Quad.hinge_eq_ok_iff.mp hangs.frame_eq).finite_corners
  have cases : j = edge.first ∨ j = edge.second ∨ j = edge.third := by
    revert seen
    cases edge <;> decide +revert
  rcases cases with rfl | rfl | rfl
  · exact first
  · exact second
  · exact third

/-- That the pose at rest has a hinge says that the frame which it was turned in is sound. So only what is
far from that hinge may be lost. -/
theorem HangsBy.finite_rest (hangs : panel.HangsBy base edge hinge) (bounded : trig.Bounded)
    (folded : Within 3 panel.window.startAngle) (reaches : base.rest.Reaches edge) : panel.rest.IsFinite := by
  obtain ⟨h, frames, rest⟩ := Quad.turnAbout_eq_ok_iff.mp hangs.rest_eq
  have turned (i : Fin 4) : panel.rest.corner i = h.turnPoint (-panel.window.startAngle) (base.rest.corner i) := by
    rw [rest, Hinge.turn, Quad.corner_map]
  have first := (Quad.hinge_eq_ok_iff.mp hangs.frame_eq).finite_corners.1
  rw [turned] at first
  have moderate := frames.moderate_of_finite (Hinge.finite_outward_of_turnPoint first)
  intro i
  rw [turned]
  refine moderate.finite_turnPoint bounded folded.neg.1 ?_
  rw [frames.anchor_eq]
  exact reaches i

theorem HangsBy.finite_geometry (hangs : panel.HangsBy base edge hinge) (bounded : trig.Bounded) {phase : Phase Float32}
    (moves : phase ≠ .settled) (finite : (panel.angle phase).isFinite = true) (reaches : panel.rest.Reaches edge)
    (spread : 0 < (hinge.along.cross hinge.upward).length) : (panel.geometry phase).IsFinite := by
  have frames := Quad.hinge_eq_ok_iff.mp hangs.frame_eq
  have length := (Vec3.length_of_within frames.within_cross).1
  have positive : 0 < realOf (hinge.along.cross hinge.upward).length := by
    have above := (lt_iff_valueOf.mp spread).2.2
    rw [valueOf_zero, valueOf_eq_realOf length] at above
    exact EReal.coe_pos.mp above
  have moderate := frames.moderate positive
  intro i
  rw [geometry_of_hinge hangs.hinge_eq moves, Hinge.turn, Quad.corner_map]
  refine moderate.finite_turnPoint bounded finite ?_
  rw [frames.anchor_eq]
  exact reaches i

end Panel

/-- What a panel in motion needs to stay finite beyond what was checked when it was built. -/
structure Panel.InRange (panel : Panel Float32) (edge : Edge) (hinge : Hinge Float32) (time : Float32) : Prop where
  reaches : panel.rest.Reaches edge
  spread : 0 < (hinge.along.cross hinge.upward).length
  elapsed : ∀ bias, panel.phaseAt time = .unfolding bias → (time - panel.window.startTime).isFinite = true

namespace Strip

variable [trig : Trig Float32] {settings : Settings Float32} {d : Description Float32} {s : Strip Float32}

theorem finite_placedSeed (built : Strip.build settings d = .ok s) : d.placedSeed.IsFinite := by
  obtain ⟨_, _, placed, _⟩ := Strip.of_build built
  exact Quad.requireFinite_eq_ok_iff.mp placed

theorem within_startAngle (built : Strip.build settings d = .ok s) {i : Nat} {panel : Panel Float32}
    (there : s.panels[i]? = some panel) (later : i ≠ 0) : Within 3 panel.window.startAngle := by
  obtain ⟨_, _, _, planned, assembled⟩ := Strip.of_build built
  obtain ⟨_, _, m, _, _, reads, rfl⟩ := Plan.ofGrammar_reads planned
  rcases assembled.exists_plan there with ⟨plan, planned', builds⟩
  have planned' : m.plans[i]? = some plan := by simpa using planned'
  rcases reads.exists_attachment planned' later with ⟨a, attached⟩
  rw [builds.window_eq]
  exact reads.within_startAngle planned' attached

end Strip

/-- However an animation has come about, its roots are finite at all times. So are three corners of every
other panel at rest, and the fourth if it is in reach of the hinge on the parent; and so is the panel at any
time at which it rests, or moves in range. -/
theorem Animation.Reached.finite_poses [trig : Trig Float32] (bounded : trig.Bounded) {a : Animation Float32}
    (reached : a.Reached) {id : Nat} {s : Strip Float32} (there : a.strip? id = some s) :
    (∀ root phase, s.panels[0]? = some root → (root.geometry phase).IsFinite) ∧
    ∀ (i : Nat) (panel : Panel Float32), s.panels[i]? = some panel → i ≠ 0 →
      ∃ parent base edge hinge, panel.parent = some parent ∧ s.panels[parent]? = some base ∧
        panel.pivot = some edge ∧ panel.hinge = some hinge ∧
        (∀ j, j ≠ edge.index + 3 → (panel.rest.corner j).isFinite = true) ∧
        (base.rest.Reaches edge → panel.rest.IsFinite ∧
          ∀ index time, (panel.phaseAt time ≠ .settled → panel.InRange edge hinge time) →
            (panel.sample index time).geometry.IsFinite) := by
  rcases reached.exists_build there with ⟨d, built⟩
  have hinged := Strip.hinged_of_build built
  have cascades := Strip.cascades_of_build (Settings.sound_of_check reached.check_settings) built
  constructor
  · intro root phase first
    rcases hinged.root with ⟨root', first', _, _, _, free, _, pose⟩
    rw [first] at first'
    cases first'
    rw [Panel.geometry_of_no_hinge free, pose]
    exact Strip.finite_placedSeed built
  · intro i panel place later
    rcases hinged.hangs place later with ⟨parent, base, edge, _, hinge, _, parent_eq, _, below, _, _, hangs⟩
    have folded := Strip.within_startAngle built place later
    refine ⟨parent, base, edge, hinge, parent_eq, below, hangs.pivot_eq, hangs.hinge_eq, ?_, ?_⟩
    · intro j seen
      exact hangs.finite_corner seen
    · intro reaches
      have rest := hangs.finite_rest bounded folded reaches
      refine ⟨rest, ?_⟩
      intro index time inRange
      change (panel.geometry (panel.phaseAt time)).IsFinite
      by_cases settled : panel.phaseAt time = .settled
      · rw [settled, Panel.geometry_settled]
        exact rest
      · rcases inRange settled with ⟨reaches', spread, elapsed⟩
        have angle := Panel.finite_angle folded hangs.endAngle_eq (cascades.numbers place).2 elapsed
        exact hangs.finite_geometry bounded settled angle reaches' spread

theorem tableTrig_bounded : tableTrig.Bounded := by
  intro angle _
  change (-1 ≤ (sineAndCosine angle).1 ∧ (sineAndCosine angle).1 ≤ 1) ∧
    (-1 ≤ (sineAndCosine angle).2 ∧ (sineAndCosine angle).2 ≤ 1)
  unfold sineAndCosine
  split <;> decide +kernel

theorem Animation.Reached.finite_poses_corner : ∃ (a : Animation Float32) (s : Strip Float32) (panel : Panel Float32),
    @Animation.Reached _ _ tableTrig a ∧ a.strip? 0 = some s ∧ s.panels[1]? = some panel ∧
      panel.phaseAt (Float32.ofBits 0x3dcccccd) ≠ .settled ∧
      (@Panel.sample _ _ tableTrig panel 1 (Float32.ofBits 0x3dcccccd)).geometry.IsFinite := by
  let _ : Trig Float32 := tableTrig
  let time := Float32.ofBits 0x3dcccccd
  have reached := Animation.Reached.standard.add .corner
  have built : (((Animation.add ⟨Settings.standard, #[], []⟩ .corner).1.strip? 0).any fun s =>
      s.panels[0]?.any fun base => s.panels[1]?.any fun panel => panel.hinge.any fun hinge =>
        panel.parent = some 0 ∧ panel.pivot = some .a ∧ base.rest.Reaches .a ∧ panel.rest.Reaches .a ∧
          0 < (hinge.along.cross hinge.upward).length ∧ panel.phaseAt time ≠ .settled ∧
          (time - panel.window.startTime).isFinite = true) = true := by
    decide +kernel
  obtain ⟨s, there, built⟩ := (Option.any_eq_true _ _).mp built
  obtain ⟨base, below, built⟩ := (Option.any_eq_true _ _).mp built
  obtain ⟨panel, place, built⟩ := (Option.any_eq_true _ _).mp built
  obtain ⟨hinge, held, built⟩ := (Option.any_eq_true _ _).mp built
  obtain ⟨parent_eq, pivot_eq, near, near', spread, moves, elapsed⟩ := of_decide_eq_true built
  obtain ⟨parent, base', edge, hinge', parent_eq', below', pivot_eq', held', _, finite⟩ :=
    (Animation.Reached.finite_poses tableTrig_bounded reached there).2 1 panel place (by decide)
  rw [parent_eq] at parent_eq'
  cases parent_eq'
  rw [below] at below'
  cases below'
  rw [pivot_eq] at pivot_eq'
  cases pivot_eq'
  rw [held] at held'
  cases held'
  exact ⟨_, s, panel, reached, there, place, moves, (finite near).2 1 time fun _ => ⟨near', spread, fun _ _ => elapsed⟩⟩

/-- A square with one corner drawn out along the diagonal that is its first edge. -/
def Description.drawnOut : Description Float32 :=
  { Description.standard with
    grammar := "A0"
    seed := ⟨⟨0, 0, 0⟩, ⟨1, 1, 0⟩, ⟨0, 1, 0⟩,
      ⟨Float32.ofBits 0x7f61b1e6, Float32.ofBits 0x7f61b1e6, 0⟩⟩ }

/-- Out of reach of the hinge the fourth corner is lost: the strip is accepted, and the panel that rests
there has a coordinate that is no number. -/
theorem Animation.Reached.not_number_drawnOut :
    ∃ (a : Animation Float32) (s : Strip Float32) (panel : Panel Float32), tableTrig.Bounded ∧
      @Animation.Reached _ _ tableTrig a ∧ a.strip? 0 = some s ∧ s.panels[1]? = some panel ∧
      panel.rest.c3.z.isNaN = true ∧ (@Panel.sample _ _ tableTrig panel 1 10).geometry.c3.z.isNaN = true := by
  let _ : Trig Float32 := tableTrig
  have reached := Animation.Reached.standard.add .drawnOut
  have built : (((Animation.add ⟨Settings.standard, #[], []⟩ .drawnOut).1.strip? 0).any fun s =>
      s.panels[1]?.any fun panel => panel.rest.c3.z.isNaN = true ∧
        (panel.sample 1 10).geometry.c3.z.isNaN = true) = true := by
    decide +kernel
  obtain ⟨s, there, built⟩ := (Option.any_eq_true _ _).mp built
  obtain ⟨panel, place, built⟩ := (Option.any_eq_true _ _).mp built
  obtain ⟨rest, seen⟩ := of_decide_eq_true built
  exact ⟨_, s, panel, tableTrig_bounded, reached, there, place, rest, seen⟩

end HingedPanels
