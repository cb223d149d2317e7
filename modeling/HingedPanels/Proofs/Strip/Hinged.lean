import HingedPanels.Proofs.Plan.Schedule
import HingedPanels.Proofs.Plan.Tree
import HingedPanels.Proofs.Strip.Assembled

namespace HingedPanels

variable {S : Type} [Scalar S] [Trig S]

structure Panel.HangsBy (panel base : Panel S) (edge : Edge) (hinge : Hinge S) : Prop where
  pivot_eq : panel.pivot = some edge
  hinge_eq : panel.hinge = some hinge
  rest_eq : base.rest.turnAbout edge (-panel.window.startAngle) = .ok panel.rest
  frame_eq : panel.rest.hinge edge = .ok hinge
  endAngle_eq : panel.window.endAngle = 0

namespace Panel

variable {seed : Quad S} {material : UInt32}

theorem free_of_ofPlan {earlier : Array (Panel S)} {plan : Plan S} {panel : Panel S}
    (built : ofPlan seed material earlier plan = .ok panel) (free : plan.attachment = none) :
    panel.rest = seed ∧ panel.hinge = none := by
  unfold ofPlan at built
  rw [free] at built
  cases built
  exact ⟨rfl, rfl⟩

theorem hangsBy_of_ofPlan {earlier : Array (Panel S)} {plan : Plan S} {panel base : Panel S} {a : Attachment}
    (built : ofPlan seed material earlier plan = .ok panel) (hangs : plan.attachment = some a)
    (below : earlier[a.parent]? = some base) (folded : plan.window.startAngle = a.face.foldedAngle plan.target)
    (flat : plan.window.endAngle = 0) : ∃ hinge, panel.HangsBy base a.edge hinge := by
  unfold ofPlan at built
  rw [hangs] at built
  dsimp only at built
  rw [below] at built
  split at built
  case h_1 => cases built
  case h_2 rest turned =>
    split at built
    case h_1 => cases built
    case h_2 hinge framed =>
      cases built
      refine ⟨hinge, rfl, rfl, ?_, framed, flat⟩
      rw [folded]
      exact turned

theorem Assembled.exists_ofPlan {plans : List (Plan S)} {panels : Array (Panel S)}
    (assembled : Assembled seed material plans panels) {i : Nat} {panel : Panel S}
    (there : panels[i]? = some panel) :
    ∃ plan earlier, plans[i]? = some plan ∧ ofPlan seed material earlier plan = .ok panel ∧
      ∀ j, j < i → earlier[j]? = panels[j]? := by
  induction assembled with
  | nil => cases there
  | @snoc plans panels plan last assembled built ih =>
    have size := assembled.size_eq
    have kept {j : Nat} (below : j < panels.size) : (panels.push last)[j]? = panels[j]? := by
      rw [Array.getElem?_push, if_neg (Nat.ne_of_lt below)]
    rw [Array.getElem?_push] at there
    split at there
    case isTrue final =>
      cases there
      refine ⟨plan, panels, ?_, built, ?_⟩
      · rw [final, size]
        exact List.getElem?_concat_length
      · intro j below
        exact (kept (final ▸ below)).symm
    case isFalse =>
      rcases ih there with ⟨earlier, before, planned, built', same⟩
      have bound := (List.getElem?_eq_some_iff.mp planned).1
      refine ⟨earlier, before, ?_, built', ?_⟩
      · rwa [List.getElem?_append_left bound]
      · intro j below
        rw [same j below, kept (size ▸ below.trans bound)]

variable {panel base : Panel S} {edge : Edge} {hinge : Hinge S}

theorem geometry_settled (panel : Panel S) : panel.geometry .settled = panel.rest := by
  unfold geometry
  cases panel.hinge <;> rfl

theorem geometry_of_no_hinge (free : panel.hinge = none) (phase : Phase S) : panel.geometry phase = panel.rest := by
  unfold geometry
  rw [free]
  cases phase <;> rfl

theorem geometry_of_hinge (held : panel.hinge = some hinge) {phase : Phase S} (moves : phase ≠ .settled) :
    panel.geometry phase = hinge.turn panel.rest (panel.angle phase) := by
  unfold geometry
  rw [held]
  cases phase with
  | settled => exact absurd rfl moves
  | dormant | unfolding bias => rfl

theorem HangsBy.turnAbout_eq (hangs : panel.HangsBy base edge hinge) {phase : Phase S} (moves : phase ≠ .settled) :
    panel.rest.turnAbout edge (panel.angle phase) = .ok (panel.geometry phase) := by
  rw [geometry_of_hinge hangs.hinge_eq moves, Quad.turnAbout, hangs.frame_eq]

end Panel

/-- The panels of a strip stand on a root in the pose of the seed, each on one before it. -/
structure Strip.Hinged (s : Strip S) (seed : Quad S) : Prop where
  root : ∃ root, s.panels[0]? = some root ∧ root.parent = none ∧ root.pivot = none ∧ root.face = none ∧
    root.hinge = none ∧ root.offset = none ∧ root.rest = seed
  hangs : ∀ {i : Nat} {panel : Panel S}, s.panels[i]? = some panel → i ≠ 0 →
    ∃ parent base edge face hinge offset, panel.parent = some parent ∧ parent < i ∧
      s.panels[parent]? = some base ∧ panel.face = some face ∧ panel.offset = some offset ∧
      panel.HangsBy base edge hinge

variable {settings : Settings S} {d : Description S} {s : Strip S}

theorem Strip.hinged_of_build (built : Strip.build settings d = .ok s) : s.Hinged d.placedSeed := by
  obtain ⟨plans, _, _, planned, assembled⟩ := Strip.of_build built
  obtain ⟨_, _, m, _, _, reads, rfl⟩ := Plan.ofGrammar_reads planned
  constructor
  case root =>
    rcases assembled.exists_panel (by simpa using reads.root_eq) with ⟨root, there, builds⟩
    rcases assembled.exists_ofPlan there with ⟨plan, earlier, planned', made, _⟩
    have same : plan = .root d.startTime := by
      rw [Array.getElem?_toList, reads.root_eq] at planned'
      exact (Option.some.inj planned').symm
    subst same
    obtain ⟨pose, free⟩ := Panel.free_of_ofPlan made rfl
    exact ⟨root, there, builds.parent_eq, builds.pivot_eq, builds.face_eq, free, builds.offset_eq, pose⟩
  case hangs =>
    intro i panel there later
    rcases assembled.exists_ofPlan there with ⟨plan, earlier, planned', made, same⟩
    rw [Array.getElem?_toList] at planned'
    rcases reads.exists_attachment planned' later with ⟨a, attached⟩
    rcases reads.follows planned' attached with ⟨above, parent_planned, follows⟩
    have lower := reads.parent_lt planned' attached
    rcases assembled.exists_panel (by simpa using parent_planned) with ⟨base, below, _⟩
    have folded : plan.window.startAngle = a.face.foldedAngle plan.target := by
      rw [follows.startAngle_eq]
      cases a.face <;> rfl
    obtain ⟨hinge, hangs⟩ := Panel.hangsBy_of_ofPlan made attached ((same _ lower).trans below) folded
      follows.endAngle_eq
    have builds := Panel.builds_of_ofPlan made
    refine ⟨a.parent, base, a.edge, a.face, hinge, a.offset, ?_, lower, below, ?_, ?_, hangs⟩
    · rw [builds.parent_eq, attached]
      rfl
    · rw [builds.face_eq, attached]
      rfl
    · rw [builds.offset_eq, attached]
      rfl

/-- Where the panels of a strip are seen. The frame that a panel keeps is as good as turning it about its
pivot edge anew, whatever its phase, and what rests is its pose at rest to the last place. -/
theorem Strip.geometry_of_build (built : Strip.build settings d = .ok s) :
    s.Hinged ((d.seed.transform d.transform).translate d.offset) ∧
    (∀ root phase, s.panels[0]? = some root → root.geometry phase = root.rest) ∧
    ∀ i panel, s.panels[i]? = some panel → i ≠ 0 → panel.geometry .settled = panel.rest ∧
      ∃ edge, panel.pivot = some edge ∧ ∀ phase, phase ≠ .settled →
        panel.rest.turnAbout edge (panel.angle phase) = .ok (panel.geometry phase) := by
  have hinged := Strip.hinged_of_build built
  refine ⟨hinged, ?_, ?_⟩
  · intro root phase there
    rcases hinged.root with ⟨root', there', _, _, _, free, _⟩
    rw [there] at there'
    cases there'
    exact Panel.geometry_of_no_hinge free phase
  · intro i panel there later
    rcases hinged.hangs there later with ⟨_, _, edge, _, _, _, _, _, _, _, _, hangs⟩
    exact ⟨panel.geometry_settled, edge, hangs.pivot_eq, fun _ moves => hangs.turnAbout_eq moves⟩

/-- The corner of a box that is set upright and put elsewhere. -/
def Description.upright : Description Float32 :=
  { Description.corner with
    transform := ⟨⟨1, 0, 0, 0⟩, ⟨0, 0, 1, 0⟩, ⟨0, -1, 0, 0⟩, ⟨0, 0, 0, 1⟩⟩
    offset := ⟨1, 2, 3⟩ }

theorem Strip.geometry_of_build_upright : ∃ (s : Strip Float32) (root panel : Panel Float32) (edge : Edge),
    @Strip.build _ _ tableTrig .standard .upright = .ok s ∧ s.panels.size = 3 ∧
      s.panels[0]? = some root ∧ root.rest = ⟨⟨1, 2, 3⟩, ⟨2, 2, 3⟩, ⟨2, 2, 4⟩, ⟨1, 2, 4⟩⟩ ∧
      (∀ phase, @Panel.geometry _ _ tableTrig root phase = root.rest) ∧
      s.panels[2]? = some panel ∧ panel.pivot = some edge ∧
      @Quad.turnAbout _ _ tableTrig panel.rest edge panel.window.startAngle =
        .ok (@Panel.geometry _ _ tableTrig panel .dormant) := by
  let _ : Trig Float32 := tableTrig
  have succeeds : ((Strip.build .standard .upright).toOption.any fun s : Strip Float32 => s.panels.size = 3) = true := by
    decide +kernel
  obtain ⟨s, built, size⟩ := exists_ok_of_any succeeds
  have size : s.panels.size = 3 := by simpa using size
  have there : s.panels[2]? = some s.panels[2] := Array.getElem?_eq_getElem (by omega)
  obtain ⟨hinged, roots, others⟩ := Strip.geometry_of_build built
  obtain ⟨root, first, _, _, _, _, _, placed⟩ := hinged.root
  have pose : (Description.upright.seed.transform Description.upright.transform).translate Description.upright.offset =
      ⟨⟨1, 2, 3⟩, ⟨2, 2, 3⟩, ⟨2, 2, 4⟩, ⟨1, 2, 4⟩⟩ := by
    decide +kernel
  obtain ⟨_, edge, pivots, turns⟩ := others 2 _ there (by decide)
  exact ⟨s, root, s.panels[2], edge, built, size, first, placed.trans pose, fun phase => roots root phase first, there,
    pivots, turns .dormant (by simp)⟩

end HingedPanels
