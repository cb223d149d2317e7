import HingedPanels.Proofs.Exact.Moved
import HingedPanels.Proofs.Strip.Framed

/-!
Strips move with their seeds. Placement touches the seed alone and every other panel follows from it hinge by
hinge, so a rotated and shifted seed gives the rotated and shifted strip at all times. A mirrored seed gives
the mirrored strip once the case of the edge letters is swapped.
-/

namespace HingedPanels

theorem exists_ok_iff {ε α : Type} {result : Except ε α} :
    (∃ value, result = .ok value) ↔ result.toOption.isSome = true := by
  cases result <;> simp [Except.toOption]

theorem toOption_map {ε α β : Type} (f : α → β) (result : Except ε α) :
    (result.map f).toOption = result.toOption.map f := by
  cases result <;> rfl

section Exact

variable [Quantities]

namespace Panel

noncomputable def moved (m : Matrix4 ℝ) (s : Sense) (material : UInt32) (p : Panel ℝ) : Panel ℝ :=
  ⟨p.rest.transform m, p.pivot, p.window.sensed s, material, p.parent, p.depth, p.face.map s.face,
    p.hinge.map (Hinge.moved m s), p.offset⟩

variable {m : Matrix4 ℝ} {s : Sense} (material : UInt32) (p : Panel ℝ)

theorem moved_angle (phase : Phase ℝ) : (p.moved m s material).angle phase = s.sign * p.angle phase := by
  cases phase with
  | dormant | settled => rfl
  | unfolding bias => exact p.window.angleAt_sensed s bias

variable (rigid : m.Rigid s)

include rigid

theorem moved_geometry (phase : Phase ℝ) :
    (p.moved m s material).geometry phase = (p.geometry phase).transform m := by
  by_cases rests : phase = .settled
  · rw [rests, geometry_settled, geometry_settled]
    rfl
  · cases held : p.hinge with
    | none =>
      have free : (p.moved m s material).hinge = none := by rw [moved, held, Option.map_none]
      rw [geometry_of_no_hinge held, geometry_of_no_hinge free]
      rfl
    | some h =>
      have held' : (p.moved m s material).hinge = some (h.moved m s) := by rw [moved, held, Option.map_some]
      rw [geometry_of_hinge held rests, geometry_of_hinge held' rests, moved_angle]
      exact h.moved_turn rigid p.rest _

theorem ofPlan_moved (seed : Quad ℝ) (other : UInt32) (built : Array (Panel ℝ)) (plan : Plan ℝ) :
    ofPlan (seed.transform m) material (built.map (moved m s material)) (plan.sensed s) =
      (ofPlan seed other built plan).map (moved m s material) := by
  unfold ofPlan Plan.sensed
  cases plan.attachment with
  | none => rfl
  | some a =>
    have below : ((built.map (moved m s material))[a.parent]?.map rest).getD (seed.transform m) =
        ((built[a.parent]?.map rest).getD seed).transform m := by
      rw [Array.getElem?_map]
      cases built[a.parent]? <;> rfl
    dsimp only [Option.map_some]
    rw [below, Face.restTurn_face, Quad.turnAbout_transform rigid]
    generalize (built[a.parent]?.map rest).getD seed = base
    cases base.turnAbout a.edge (a.face.restTurn plan.target) with
    | error fault => rfl
    | ok rest =>
      dsimp only [Except.map]
      rw [Quad.hinge_transform rigid]
      cases rest.hinge a.edge <;> rfl

theorem assemble_moved (seed : Quad ℝ) (other : UInt32) (built : Array (Panel ℝ)) (plans : List (Plan ℝ)) :
    assemble (seed.transform m) material (built.map (moved m s material)) (plans.map (Plan.sensed s)) =
      (assemble seed other built plans).map (·.map (moved m s material)) := by
  induction plans generalizing built with
  | nil => rfl
  | cons plan plans ih =>
    rw [List.map_cons, assemble, assemble, ofPlan_moved material rigid seed other built plan]
    cases ofPlan seed other built plan with
    | error fault => rfl
    | ok panel =>
      have step := ih (built.push panel)
      rw [Array.map_push] at step
      exact step

end Panel

/-- The panels of the second strip are those of the first one moved by `f`, at rest and at all times. -/
structure Strip.Image (strip' strip : Strip ℝ) (f : Vec3 ℝ → Vec3 ℝ) : Prop where
  size_eq : strip'.panels.size = strip.panels.size
  rest_eq : ∀ {i : Nat} {panel panel' : Panel ℝ}, strip.panels[i]? = some panel → strip'.panels[i]? = some panel' →
    panel'.rest = panel.rest.map f
  sample_eq : ∀ {i : Nat} {panel panel' : Panel ℝ}, strip.panels[i]? = some panel →
    strip'.panels[i]? = some panel' → ∀ time : ℝ,
    (panel'.sample i time).geometry = (panel.sample i time).geometry.map f ∧
      (panel'.sample i time).phase = (panel.sample i time).phase

/-- The second description can be built when the first one can, and builds the moved strip. -/
structure Description.Carried (settings : Settings ℝ) (d d' : Description ℝ) (f : Vec3 ℝ → Vec3 ℝ) : Prop where
  builds_iff : (∃ strip', Strip.build settings d' = .ok strip') ↔ ∃ strip, Strip.build settings d = .ok strip
  image : ∀ {strip strip' : Strip ℝ}, Strip.build settings d = .ok strip → Strip.build settings d' = .ok strip' →
    strip'.Image strip f

theorem Strip.image_moved {m : Matrix4 ℝ} {s : Sense} (rigid : m.Rigid s) (label : String) (material : UInt32) (strip : Strip ℝ) :
    (⟨label, strip.panels.map (Panel.moved m s material)⟩ : Strip ℝ).Image strip m.apply := by
  have same {i : Nat} {panel panel' : Panel ℝ} (there : strip.panels[i]? = some panel)
      (there' : (strip.panels.map (Panel.moved m s material))[i]? = some panel') :
      panel' = panel.moved m s material := by
    rw [Array.getElem?_map, there] at there'
    exact (Option.some.inj there').symm
  constructor
  case size_eq => exact Array.size_map
  case rest_eq =>
    intro i panel panel' there there'
    rw [same there there']
    rfl
  case sample_eq =>
    intro i panel panel' there there' time
    rw [same there there']
    exact ⟨panel.moved_geometry material rigid _, rfl⟩

section Carried

variable (settings : Settings ℝ) {d d' : Description ℝ} {m : Matrix4 ℝ} {s : Sense} (rigid : m.Rigid s)
  (placed : d'.placedSeed = d.placedSeed.transform m) (reads : d'.grammar = s.grammar d.grammar)
  (starts : d'.startTime = d.startTime)

include rigid placed reads starts

theorem Description.panels_moved :
    (d'.panels settings).toOption = (d.panels settings).toOption.map (·.map (Panel.moved m s d'.material)) := by
  rw [toOption_panels, toOption_panels, placed, reads, starts, Plan.ofGrammar_grammar]
  cases Plan.ofGrammar settings d.grammar d.startTime with
  | error fault => rfl
  | ok plans =>
    have made := Panel.assemble_moved d'.material rigid d.placedSeed d.material #[] plans.toList
    rw [Array.map_empty, ← Array.toList_map] at made
    exact (congrArg Except.toOption made).trans (toOption_map _ _)

theorem Strip.build_moved :
    (build settings d').toOption =
      (build settings d).toOption.map fun strip => ⟨d'.label, strip.panels.map (Panel.moved m s d'.material)⟩ := by
  rw [toOption_build, toOption_build, Description.panels_moved settings rigid placed reads starts, Option.map_map,
    Option.map_map]
  rfl

theorem Description.carried : Carried settings d d' m.apply := by
  have made := Strip.build_moved settings rigid placed reads starts
  constructor
  case builds_iff =>
    rw [exists_ok_iff, exists_ok_iff, made, Option.isSome_map]
  case image =>
    intro strip strip' built built'
    rw [built, built'] at made
    cases made
    exact Strip.image_moved rigid d'.label d'.material strip

end Carried

/-- A strip follows every rotation and shift of its seed. With the case of its edge letters swapped it follows
every reflection of its seed, and on a seed that lies in a plane it folds to the other side of that plane. -/
theorem Description.carried_of_rigid (settings : Settings ℝ) (d d' : Description ℝ)
    (starts : d'.startTime = d.startTime) :
    (∀ m : Matrix4 ℝ, m.Rigid .kept → d'.placedSeed = d.placedSeed.transform m → d'.grammar = d.grammar →
      Carried settings d d' m.apply) ∧
    (∀ m : Matrix4 ℝ, m.Rigid .reversed → d'.placedSeed = d.placedSeed.transform m →
      d'.grammar = Sense.reversed.grammar d.grammar → Carried settings d d' m.apply) ∧
    ∀ o n : Vec3 ℝ, n.dot n = 1 → (∀ i, (d.placedSeed.corner i - o).dot n = 0) → d'.placedSeed = d.placedSeed →
      d'.grammar = Sense.reversed.grammar d.grammar →
      Carried settings d d' fun p => p - n * (2 * (p - o).dot n) := by
  refine ⟨?_, ?_, ?_⟩
  · intro m rigid placed same
    exact carried settings rigid placed (same.trans (Sense.grammar_kept d.grammar).symm) starts
  · intro m rigid placed swapped
    exact carried settings rigid placed swapped starts
  · intro o n unit planar same swapped
    have mirrored := carried settings (Matrix4.mirror_rigid (o := o) unit)
      (same.trans (Matrix4.transform_mirror unit planar).symm) swapped starts
    rwa [funext (Matrix4.apply_mirror unit)] at mirrored

theorem Description.placedSeed_transform (grammar : String) (m : Matrix4 ℝ) :
    { Description.standard with grammar := grammar, transform := m : Description ℝ }.placedSeed =
      Quad.unitSquare.transform m := by
  simp only [placedSeed, standard, Quad.transform, Quad.translate, Quad.map, Vec3.shift_zero]

theorem Quad.unitSquare_flat (i : Fin 4) : ((unitSquare : Quad ℝ).corner i - 0).dot ⟨0, 0, 1⟩ = 0 := by
  have height (v : Vec3 ℝ) : v.dot ⟨0, 0, 1⟩ = v.z := by simp [Vec3.dot]
  have flat (x : ℝ) : x + 0 - 0 = x := by ring
  rw [height]
  fin_cases i
  · exact sub_zero 0
  · exact flat 0
  · exact (flat _).trans (add_zero 0)
  · exact flat 0

end Exact

/-- A panel on the unit square that folds to the front, with its seed turned and shifted, with its seed in a
mirror, and in a mirror that holds the seed. -/
theorem Description.carried_of_rigid_wall :
    let _ := Quantities.radians
    ∃ (turn : Matrix4 ℝ) (wall turned mirrored beneath : Strip ℝ) (d : Description ℝ), wall.panels.size = 2 ∧
      d.grammar = "A0" ∧ Strip.build ⟨1, 0, 1⟩ d = .ok wall ∧
      Strip.build ⟨1, 0, 1⟩ { d with transform := turn } = .ok turned ∧
      Strip.build ⟨1, 0, 1⟩ { d with grammar := "a0", transform := .mirror ⟨0, 0, 1⟩ ⟨0, 0, 1⟩ } = .ok mirrored ∧
      Strip.build ⟨1, 0, 1⟩ { d with grammar := "a0" } = .ok beneath ∧
      turned.Image wall turn.apply ∧ mirrored.Image wall (Matrix4.mirror ⟨0, 0, 1⟩ ⟨0, 0, 1⟩).apply ∧
      beneath.Image wall fun p => p - (⟨0, 0, 1⟩ : Vec3 ℝ) * (2 * (p - 0).dot ⟨0, 0, 1⟩) := by
  intro _
  let settings : Settings ℝ := ⟨1, 0, 1⟩
  let d : Description ℝ := { Description.standard with grammar := "A0" }
  let turn : Matrix4 ℝ := ⟨⟨0, 1, 0, 0⟩, ⟨-1, 0, 0, 0⟩, ⟨0, 0, 1, 0⟩, ⟨1, 2, 3, 1⟩⟩
  let d₁ : Description ℝ := { d with transform := turn }
  let d₂ : Description ℝ := { d with grammar := "a0", transform := .mirror ⟨0, 0, 1⟩ ⟨0, 0, 1⟩ }
  let d₃ : Description ℝ := { d with grammar := "a0" }
  have square (grammar : String) : { d with grammar }.placedSeed = Quad.unitSquare := placedSeed_standard grammar
  have placed (grammar : String) (m : Matrix4 ℝ) :
      { d with grammar := grammar, transform := m }.placedSeed = d.placedSeed.transform m := by
    rw [square "A0"]
    exact placedSeed_transform grammar m
  have planned : Plan.ofGrammar settings d.grammar (0 : ℝ) =
      .ok #[.root 0, .fold settings ⟨0, 0⟩ 0 .a .front .quarter 0] :=
    (Plan.ofGrammar_eq_run Token.ofGrammar_wall settings (0 : ℝ)).trans rfl
  have swapped : "a0" = Sense.reversed.grammar d.grammar := by cbv
  have rigid : turn.Rigid .kept := by
    constructor <;> norm_num [turn, Vec4.direction, Vec3.dot, Vec3.cross, Sense.sign]
  have unit : (⟨0, 0, 1⟩ : Vec3 ℝ).dot ⟨0, 0, 1⟩ = 1 := by norm_num [Vec3.dot]
  have planar (i : Fin 4) : (d.placedSeed.corner i - 0).dot ⟨0, 0, 1⟩ = 0 := by
    rw [square "A0"]
    exact Quad.unitSquare_flat i
  have turns := (carried_of_rigid settings d d₁ rfl).1 turn rigid (placed "A0" turn) rfl
  have mirrors := (carried_of_rigid settings d d₂ rfl).2.1 _ (Matrix4.mirror_rigid unit) (placed "a0" _) swapped
  have folds := (carried_of_rigid settings d d₃ rfl).2.2 0 _ unit planar
    ((square "a0").trans (square "A0").symm) swapped
  obtain ⟨wall, built⟩ : ∃ wall, Strip.build settings d = .ok wall := by
    apply Strip.exists_build planned
    intro plan member a hangs
    rcases List.mem_pair.mp (Array.mem_toList_iff.mpr member) with rfl | rfl
    · cases hangs
    · cases hangs
      rw [square "A0"]
      exact ⟨_, Quad.frames_unitSquare Quantities.tolerance_radians_le_one⟩
  have size : wall.panels.size = 2 := by
    obtain ⟨plans, _, _, planned', assembled⟩ := Strip.of_build built
    rw [assembled.size_eq, Except.ok.inj (planned'.symm.trans planned)]
    rfl
  obtain ⟨turned, built₁⟩ := turns.builds_iff.mpr ⟨wall, built⟩
  obtain ⟨mirrored, built₂⟩ := mirrors.builds_iff.mpr ⟨wall, built⟩
  obtain ⟨beneath, built₃⟩ := folds.builds_iff.mpr ⟨wall, built⟩
  exact ⟨turn, wall, turned, mirrored, beneath, d, size, rfl, built, built₁, built₂, built₃, turns.image built built₁,
    mirrors.image built built₂, folds.image built built₃⟩

end HingedPanels
