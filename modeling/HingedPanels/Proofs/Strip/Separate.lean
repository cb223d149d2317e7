import HingedPanels.Proofs.Machine.Coupled
import HingedPanels.Proofs.Strip.Assembled

namespace HingedPanels

variable {S : Type}

structure Plan.SameFold (plan plan' : Plan S) : Prop where
  attachment_eq : plan.attachment = plan'.attachment
  target_eq : plan.target = plan'.target
  depth_eq : plan.depth = plan'.depth
  startAngle_eq : plan.window.startAngle = plan'.window.startAngle
  endAngle_eq : plan.window.endAngle = plan'.window.endAngle

namespace Panel

/-- Two panels with the same place in the tree and the same poses, in windows of their own. -/
structure SamePose (p p' : Panel S) : Prop where
  rest_eq : p.rest = p'.rest
  hinge_eq : p.hinge = p'.hinge
  pivot_eq : p.pivot = p'.pivot
  parent_eq : p.parent = p'.parent
  depth_eq : p.depth = p'.depth
  face_eq : p.face = p'.face
  startAngle_eq : p.window.startAngle = p'.window.startAngle
  endAngle_eq : p.window.endAngle = p'.window.endAngle
  offset_eq : p.offset = p'.offset

/-- Two panels with the same place in the tree and the same window, in poses of their own. -/
structure SameTimes (p p' : Panel S) : Prop where
  window_eq : p.window = p'.window
  pivot_eq : p.pivot = p'.pivot
  parent_eq : p.parent = p'.parent
  depth_eq : p.depth = p'.depth
  face_eq : p.face = p'.face
  offset_eq : p.offset = p'.offset

def SamePoses (panels panels' : Array (Panel S)) : Prop := List.Forall₂ SamePose panels.toList panels'.toList

variable {panels panels' : Array (Panel S)}

theorem SamePoses.rest_eq (poses : SamePoses panels panels') (i : Nat) : panels[i]?.map rest = panels'[i]?.map rest := by
  have same : panels.toList.map rest = panels'.toList.map rest := by
    rw [← List.forall₂_eq_eq_eq, List.forall₂_map_left_iff, List.forall₂_map_right_iff]
    exact poses.imp fun _ _ pose => pose.rest_eq
  rw [← Array.getElem?_toList, ← Array.getElem?_toList, ← List.getElem?_map, ← List.getElem?_map, same]

theorem Builds.sameTimes [Scalar S] {p p' : Panel S} {plan : Plan S} (builds : p.Builds plan) (builds' : p'.Builds plan) :
    p.SameTimes p' where
  window_eq := builds.window_eq.trans builds'.window_eq.symm
  pivot_eq := builds.pivot_eq.trans builds'.pivot_eq.symm
  parent_eq := builds.parent_eq.trans builds'.parent_eq.symm
  depth_eq := builds.depth_eq.trans builds'.depth_eq.symm
  face_eq := builds.face_eq.trans builds'.face_eq.symm
  offset_eq := builds.offset_eq.trans builds'.offset_eq.symm

theorem sameTimes_of_builds [Scalar S] {panels panels' : List (Panel S)} {plans : List (Plan S)}
    (built : List.Forall₂ Builds panels plans) (built' : List.Forall₂ Builds panels' plans) :
    List.Forall₂ SameTimes panels panels' := by
  induction built generalizing panels' with
  | nil =>
    cases built'
    exact .nil
  | cons builds _ ih =>
    cases built' with
    | cons builds' rest => exact .cons (builds.sameTimes builds') (ih rest)

end Panel

variable [Scalar S]

def Coupling.untimed {settings settings' : Settings S} (levels : settings.maxBranchDepth = settings'.maxBranchDepth) :
    Coupling settings settings' where
  token := Eq
  time _ _ := True
  plan := Plan.SameFold
  limit_eq := levels
  shape_eq := congrArg Token.shape
  branch := id
  fold _ _ head _ := by
    cases head
    exact ⟨⟨rfl, rfl, rfl, rfl, rfl⟩, trivial⟩

theorem Plan.ofGrammar_untimed {settings settings' : Settings S}
    (levels : settings.maxBranchDepth = settings'.maxBranchDepth) (grammar : String) (startTime startTime' : S) :
    Alike Eq (fun plans plans' => List.Forall₂ SameFold plans.toList plans'.toList)
      (ofGrammar settings grammar startTime) (ofGrammar settings' grammar startTime') := by
  cases scanned : Token.ofGrammar grammar with
  | error fault =>
    rw [ofGrammar, ofGrammar, scanned]
    exact .error rfl
  | ok tokens =>
    have together : List.Forall₂ (Coupling.untimed levels).token tokens tokens := List.forall₂_same.mpr fun _ _ => rfl
    have roots : SameFold (root startTime) (root startTime') := ⟨rfl, rfl, rfl, rfl, rfl⟩
    apply (Coupling.ofGrammar scanned scanned together trivial roots).mono
    · rintro _ _ ⟨offset, offset', same, rfl, rfl⟩
      cases same
      rfl
    · exact fun _ _ => id

variable [Trig S]

namespace Panel

variable {panels panels' : Array (Panel S)} (seed : Quad S) (material material' : UInt32)

theorem ofPlan_samePose (poses : SamePoses panels panels') {plan plan' : Plan S} (fold : plan.SameFold plan') :
    Alike Eq SamePose (ofPlan seed material panels plan) (ofPlan seed material' panels' plan') := by
  rcases fold with ⟨hangs, target, depth, startAngle, endAngle⟩
  unfold ofPlan
  rw [← hangs, ← target]
  cases plan.attachment with
  | none => exact .ok ⟨rfl, rfl, rfl, rfl, depth, rfl, startAngle, endAngle, rfl⟩
  | some a =>
    dsimp only
    rw [← poses.rest_eq a.parent]
    cases ((panels[a.parent]?.map rest).getD seed).turnAbout a.edge (a.face.restTurn plan.target) with
    | error fault => exact .error rfl
    | ok pose =>
      dsimp only
      cases pose.hinge a.edge with
      | error fault => exact .error rfl
      | ok hinge => exact .ok ⟨rfl, rfl, rfl, rfl, depth, rfl, startAngle, endAngle, rfl⟩

theorem assemble_samePoses (poses : SamePoses panels panels') {plans plans' : List (Plan S)}
    (folds : List.Forall₂ Plan.SameFold plans plans') :
    Alike Eq SamePoses (assemble seed material panels plans) (assemble seed material' panels' plans') := by
  induction folds generalizing panels panels' with
  | nil => exact .ok poses
  | @cons plan plan' _ _ fold _ ih =>
    have step := ofPlan_samePose seed material material' poses fold
    rw [assemble, assemble]
    generalize ofPlan seed material panels plan = made at step ⊢
    generalize ofPlan seed material' panels' plan' = made' at step ⊢
    cases step with
    | ok last => exact ih (forall₂_toList_push poses last)
    | error same => exact .error same

theorem Assembled.builds {seed : Quad S} {material : UInt32} {plans : List (Plan S)} {panels : Array (Panel S)}
    (assembled : Assembled seed material plans panels) : List.Forall₂ Builds panels.toList plans := by
  induction assembled with
  | nil => exact .nil
  | snoc _ built ih =>
    simpa only [Array.toList_push] using List.rel_append ih (.cons (builds_of_ofPlan built) .nil)

end Panel

structure Description.SamePlace (d d' : Description S) : Prop where
  seed_eq : d.seed = d'.seed
  transform_eq : d.transform = d'.transform
  offset_eq : d.offset = d'.offset

section Separate

variable {settings settings' : Settings S} {d d' : Description S}

theorem Description.panels_samePoses (levels : settings.maxBranchDepth = settings'.maxBranchDepth)
    (grammar : d.grammar = d'.grammar) (place : d.SamePlace d') (finite : Scalar.isFinite d.startTime = true)
    (finite' : Scalar.isFinite d'.startTime = true) :
    Alike Eq Panel.SamePoses (d.panels settings) (d'.panels settings') := by
  have placed : d.placedSeed = d'.placedSeed := by
    rw [placedSeed, placedSeed, place.seed_eq, place.transform_eq, place.offset_eq]
  have plans := Plan.ofGrammar_untimed levels d'.grammar d.startTime d'.startTime
  unfold panels
  rw [checkStart, checkStart, if_pos finite, if_pos finite', placed, grammar]
  cases d'.placedSeed.requireFinite with
  | error fault => exact .error rfl
  | ok _ =>
    apply (plans.mapError _).bind
    intro made made' folds
    exact (Panel.assemble_samePoses d'.placedSeed d.material d'.material .nil folds).mapError _

theorem Strip.build_samePoses (panels : Alike Eq Panel.SamePoses (d.panels settings) (d'.panels settings')) :
    Alike (fun fault fault' => ∃ cause, fault = .build d.label cause ∧ fault' = .build d'.label cause)
      (fun s s' => Panel.SamePoses s.panels s'.panels) (build settings d) (build settings' d') := by
  rw [build, build]
  generalize d.panels settings = made at panels ⊢
  generalize d'.panels settings' = made' at panels ⊢
  cases panels with
  | ok poses => exact .ok poses
  | error same =>
    subst same
    exact .error ⟨_, rfl, rfl⟩

theorem Strip.sameTimes_of_build (grammar : d.grammar = d'.grammar) (start : d.startTime = d'.startTime)
    {s s' : Strip S} (built : build settings d = .ok s) (built' : build settings d' = .ok s') :
    List.Forall₂ Panel.SameTimes s.panels.toList s'.panels.toList := by
  rcases of_build built with ⟨plans, _, _, planned, assembled⟩
  rcases of_build built' with ⟨plans', _, _, planned', assembled'⟩
  rw [← grammar, ← start, planned] at planned'
  cases planned'
  exact Panel.sameTimes_of_builds assembled.builds assembled'.builds

/-- Strips of the same grammar. From the same placed seed they are built alike, or refused for the same cause,
whenever and however fast they move; and from the same time on they move alike, wherever they stand. -/
theorem Strip.build_separate (levels : settings.maxBranchDepth = settings'.maxBranchDepth)
    (grammar : d.grammar = d'.grammar) :
    (d.SamePlace d' → Scalar.isFinite d.startTime = true → Scalar.isFinite d'.startTime = true →
      Alike (fun fault fault' => ∃ cause, fault = .build d.label cause ∧ fault' = .build d'.label cause)
        (fun s s' => Panel.SamePoses s.panels s'.panels) (build settings d) (build settings' d')) ∧
    (settings = settings' → d.startTime = d'.startTime → ∀ s s', build settings d = .ok s →
      build settings' d' = .ok s' → List.Forall₂ Panel.SameTimes s.panels.toList s'.panels.toList) := by
  constructor
  · intro place finite finite'
    exact build_samePoses (Description.panels_samePoses levels grammar place finite finite')
  · rintro rfl start s s' built built'
    exact sameTimes_of_build grammar start built built'

end Separate

theorem Strip.build_separate_corner :
    let late : Description Float32 := { Description.corner with label := "late", startTime := Float32.ofBits 0x40000000, material := 7 }
    let away : Description Float32 := { Description.corner with label := "away", offset := ⟨1, 2, 0⟩ }
    ∃ s s' s'' : Strip Float32, @build _ _ tableTrig .standard .corner = .ok s ∧
      @build _ _ tableTrig ⟨1, 1, 32⟩ late = .ok s' ∧ @build _ _ tableTrig .standard away = .ok s'' ∧
      s.panels.size = 3 ∧ Panel.SamePoses s.panels s'.panels ∧
      List.Forall₂ Panel.SameTimes s.panels.toList s''.panels.toList := by
  let _ : Trig Float32 := tableTrig
  intro late away
  have succeeds : ((build .standard .corner).toOption.any fun s : Strip Float32 => s.panels.size = 3) = true := by
    decide +kernel
  have succeeds' : ((build .standard away).toOption.any fun s : Strip Float32 => s.panels.size = 3) = true := by
    decide +kernel
  rcases exists_ok_of_any succeeds with ⟨s, built, size⟩
  rcases exists_ok_of_any succeeds' with ⟨s'', built'', _⟩
  have levels : Settings.standard.maxBranchDepth = (⟨1, 1, 32⟩ : Settings Float32).maxBranchDepth := rfl
  have grammar : Description.corner.grammar = late.grammar := rfl
  have poses := (build_separate levels grammar).1 ⟨rfl, rfl, rfl⟩ rfl (by decide +kernel)
  have grammar' : Description.corner.grammar = away.grammar := rfl
  have times := (build_separate rfl grammar').2 rfl rfl s s'' built built''
  rw [built] at poses
  generalize build ⟨1, 1, 32⟩ late = made at poses ⊢
  cases poses with
  | ok same => exact ⟨s, _, s'', built, rfl, built'', by simpa using size, same, times⟩

end HingedPanels
