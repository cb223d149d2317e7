import HingedPanels.Proofs.Exact.Spread
import HingedPanels.Proofs.Strip.Rigid

namespace HingedPanels

theorem exists_ok_iff_eq_none {ε α : Type} {result : Except ε α} {fault : Option ε}
    (outcome : ∀ cause, result = .error cause ↔ fault = some cause) : (∃ value, result = .ok value) ↔ fault = none := by
  cases result with
  | error cause => simp [(outcome cause).mp rfl]
  | ok value =>
    have free : fault = none := Option.eq_none_iff_forall_ne_some.mpr fun cause found => nomatch (outcome cause).mpr found
    simp [free]

section Exact

variable [Quantities]

def Plan.edges {S : Type} (plans : List (Plan S)) : List Edge :=
  plans.filterMap fun plan => plan.attachment.map (·.edge)

namespace Panel

variable {seed : Quad ℝ} {built : Array (Panel ℝ)} (material : UInt32)

theorem congruent_base (shapes : ∀ panel ∈ built, panel.rest.Congruent seed) (parent : Nat) :
    ((built[parent]?.map rest).getD seed).Congruent seed := by
  cases below : built[parent]? with
  | none => exact fun _ _ => rfl
  | some base => exact shapes base (Array.mem_of_getElem? below)

theorem ofPlan_error_iff {plan : Plan ℝ} {a : Attachment} {fault : DegenerateEdge ℝ}
    (hangs : plan.attachment = some a) : ofPlan seed material built plan = .error fault ↔
      ((built[a.parent]?.map rest).getD seed).hinge a.edge = .error fault := by
  unfold ofPlan
  rw [hangs]
  dsimp only
  generalize (built[a.parent]?.map rest).getD seed = base
  cases found : base.hinge a.edge with
  | error cause => simp [Quad.turnAbout, found]
  | ok h =>
    have frames := Quad.hinge_eq_ok_iff.mp found
    rw [frames.turnAbout_eq]
    dsimp only
    rw [Quad.hinge_eq_ok_iff.mpr (frames.turn _)]
    simp

theorem congruent_of_ofPlan (shapes : ∀ panel ∈ built, panel.rest.Congruent seed) {plan : Plan ℝ} {panel : Panel ℝ}
    (made : ofPlan seed material built plan = .ok panel) : panel.rest.Congruent seed := by
  unfold ofPlan at made
  split at made
  case h_1 =>
    cases made
    exact fun _ _ => rfl
  case h_2 parent _ _ _ _ =>
    dsimp only at made
    split at made
    · cases made
    · rename_i pose turned
      obtain ⟨h, frames, same⟩ := Quad.turnAbout_eq_ok_iff.mp turned
      split at made
      · cases made
      · cases made
        intro i j
        dsimp only
        rw [same]
        exact (frames.congruent_turn _ i j).trans (congruent_base shapes parent i j)

theorem assemble_error_iff (plans : List (Plan ℝ)) (shapes : ∀ panel ∈ built, panel.rest.Congruent seed)
    {fault : DegenerateEdge ℝ} : assemble seed material built plans = .error fault ↔
      (Plan.edges plans).findSome? seed.faultAt = some fault := by
  -- The panels built so far keep the shape of the seed, so a parent has a hinge where the seed has one.
  induction plans generalizing built with
  | nil => simp [assemble, Plan.edges]
  | cons plan plans ih =>
    have onward {panel : Panel ℝ} (made : ofPlan seed material built plan = .ok panel) :
        assemble seed material built (plan :: plans) = .error fault ↔
          (Plan.edges plans).findSome? seed.faultAt = some fault := by
      rw [assemble, made]
      apply ih
      intro other member
      rcases Array.mem_push.mp member with old | rfl
      · exact shapes other old
      · exact congruent_of_ofPlan material shapes made
    cases hangs : plan.attachment with
    | none =>
      have edges : Plan.edges (plan :: plans) = Plan.edges plans := by simp [Plan.edges, hangs]
      obtain ⟨panel, made⟩ : ∃ panel, ofPlan seed material built plan = .ok panel := by
        unfold ofPlan
        rw [hangs]
        exact ⟨_, rfl⟩
      rw [edges, onward made]
    | some a =>
      have edges : Plan.edges (plan :: plans) = a.edge :: Plan.edges plans := by simp [Plan.edges, hangs]
      have refused (cause : DegenerateEdge ℝ) :
          ofPlan seed material built plan = .error cause ↔ seed.faultAt a.edge = some cause := by
        rw [ofPlan_error_iff material hangs, ← Quad.faultAt_eq_some_iff, (congruent_base shapes a.parent).faultAt_eq]
      rw [edges, List.findSome?_cons]
      cases made : ofPlan seed material built plan with
      | error cause =>
        rw [assemble, made, (refused cause).mp made]
        simp
      | ok panel =>
        rw [onward made, (exists_ok_iff_eq_none refused).mp ⟨panel, made⟩]

end Panel

theorem Strip.toOption_build (settings : Settings ℝ) (d : Description ℝ) :
    (build settings d).toOption = (d.panels settings).toOption.map (Strip.mk d.label) := by
  unfold build
  cases d.panels settings <;> rfl

/-- Every real number is finite, so in exact arithmetic no placement is refused. -/
theorem Description.panels_eq (settings : Settings ℝ) (d : Description ℝ) : d.panels settings =
    ((Plan.ofGrammar settings d.grammar d.startTime).mapError .grammar).bind fun plans =>
      (Panel.assemble d.placedSeed d.material #[] plans.toList).mapError .degenerate := by
  have started : d.checkStart = .ok () := rfl
  have placed : d.placedSeed.requireFinite = .ok () := Quad.requireFinite_eq_ok_iff.mpr fun _ => rfl
  unfold panels
  rw [started, placed]
  rfl

theorem Description.toOption_panels (settings : Settings ℝ) (d : Description ℝ) :
    (d.panels settings).toOption = (Plan.ofGrammar settings d.grammar d.startTime).toOption.bind fun plans =>
      (Panel.assemble d.placedSeed d.material #[] plans.toList).toOption := by
  rw [panels_eq]
  cases Plan.ofGrammar settings d.grammar d.startTime with
  | error fault => rfl
  | ok plans =>
    change ((Panel.assemble d.placedSeed d.material #[] plans.toList).mapError Fault.degenerate).toOption =
      (Panel.assemble d.placedSeed d.material #[] plans.toList).toOption
    cases Panel.assemble d.placedSeed d.material #[] plans.toList <;> rfl

section Planned

variable {settings : Settings ℝ} {d : Description ℝ} {plans : Array (Plan ℝ)}
  (planned : Plan.ofGrammar settings d.grammar d.startTime = .ok plans)

include planned

theorem Strip.build_error_iff {fault : Fault ℝ} : build settings d = .error fault ↔
    ((Plan.edges plans.toList).findSome? d.placedSeed.faultAt).map (.build d.label ∘ .degenerate) = some fault := by
  have panels : d.panels settings =
      (Panel.assemble d.placedSeed d.material #[] plans.toList).mapError .degenerate := by
    rw [Description.panels_eq, planned]
    rfl
  have outcome (cause : DegenerateEdge ℝ) :
      Panel.assemble d.placedSeed d.material #[] plans.toList = .error cause ↔
        (Plan.edges plans.toList).findSome? d.placedSeed.faultAt = some cause :=
    Panel.assemble_error_iff d.material plans.toList (by simp)
  unfold build
  rw [panels]
  cases made : Panel.assemble d.placedSeed d.material #[] plans.toList with
  | error cause =>
    rw [(outcome cause).mp made]
    simp [Except.mapError]
  | ok built =>
    rw [(exists_ok_iff_eq_none outcome).mp ⟨built, made⟩]
    simp [Except.mapError]

theorem Strip.exists_build_iff :
    (∃ strip, build settings d = .ok strip) ↔ ∀ e ∈ Plan.edges plans.toList, d.placedSeed.Spread e := by
  rw [exists_ok_iff_eq_none fun _ => build_error_iff planned, Option.map_eq_none_iff, List.findSome?_eq_none_iff]
  simp only [Quad.faultAt_eq_none_iff]

theorem Strip.build_refused {before after : List Edge} {e : Edge}
    (parts : Plan.edges plans.toList = before ++ e :: after) (spread : ∀ e' ∈ before, d.placedSeed.Spread e')
    (narrow : ¬ d.placedSeed.Spread e) :
    ∃ cause, build settings d = .error (.build d.label (.degenerate ⟨e, cause⟩)) := by
  cases found : d.placedSeed.faultAt e with
  | none => exact absurd (Quad.faultAt_eq_none_iff.mp found) narrow
  | some fault =>
    obtain ⟨edge, cause⟩ := fault
    have same : edge = e := Quad.edge_of_hinge_error (Quad.faultAt_eq_some_iff.mp found)
    subst same
    refine ⟨cause, (build_error_iff planned).mpr ?_⟩
    rw [List.findSome?_eq_some_iff.mpr ⟨before, edge, after, parts, found, ?_⟩]
    · rfl
    · exact fun e' member => Quad.faultAt_eq_none_iff.mpr (spread e' member)

theorem Strip.exists_build (framed : ∀ plan ∈ plans, ∀ a, plan.attachment = some a → ∃ h, d.placedSeed.Frames a.edge h) :
    ∃ strip, build settings d = .ok strip := by
  apply (exists_build_iff planned).mpr
  intro e named
  obtain ⟨plan, member, there⟩ := List.mem_filterMap.mp named
  obtain ⟨a, hangs, rfl⟩ := Option.map_eq_some_iff.mp there
  exact Quad.spread_iff.mpr (framed plan (Array.mem_toList_iff.mp member) a hangs)

end Planned

/-- Which planned strips can be built. It takes a seed on which every edge that the plan names is long enough and
has its third corner far enough from its line; otherwise the first edge without that is reported. The rest of the plan
is of no account, and no panel is refused once its parent has been found to have the hinge. -/
theorem Strip.build_geometry {settings : Settings ℝ} {d : Description ℝ} {plans : Array (Plan ℝ)}
    (planned : Plan.ofGrammar settings d.grammar d.startTime = .ok plans) :
    ((∃ strip, build settings d = .ok strip) ↔ ∀ e ∈ Plan.edges plans.toList, d.placedSeed.Spread e) ∧
    (∀ before e after, Plan.edges plans.toList = before ++ e :: after → (∀ e' ∈ before, d.placedSeed.Spread e') →
      ¬ d.placedSeed.Spread e → ∃ cause, build settings d = .error (.build d.label (.degenerate ⟨e, cause⟩))) ∧
    (∀ settings' d' plans', Plan.ofGrammar settings' d'.grammar d'.startTime = .ok plans' →
      d'.placedSeed = d.placedSeed → Plan.edges plans'.toList = Plan.edges plans.toList →
      ∀ cause, build settings' d' = .error (.build d'.label cause) ↔ build settings d = .error (.build d.label cause)) ∧
    ∀ built plan a, plan.attachment = some a → ∀ fault,
      Panel.ofPlan d.placedSeed d.material built plan = .error fault ↔
        ((built[a.parent]?.map Panel.rest).getD d.placedSeed).hinge a.edge = .error fault := by
  refine ⟨exists_build_iff planned, ?_, ?_, ?_⟩
  · intro before e after parts spread narrow
    exact build_refused planned parts spread narrow
  · intro settings' d' plans' planned' placed edges cause
    rw [build_error_iff planned', build_error_iff planned, placed, edges]
    simp only [Option.map_eq_some_iff, Function.comp_apply, Fault.build.injEq, true_and]
  · intro built plan a hangs fault
    exact Panel.ofPlan_error_iff d.material hangs

end Exact

/-- A quad whose third edge has no length, and whose first edge is just as long as it has to be. -/
noncomputable def Quad.triangle [Quantities] : Quad ℝ :=
  ⟨⟨0, 0, 0⟩, ⟨Quantities.tolerance, 0, 0⟩, ⟨Quantities.tolerance, 1, 0⟩, ⟨Quantities.tolerance, 1, 0⟩⟩

theorem Quad.triangle_spread [Quantities] (small : Quantities.tolerance ≤ 1) :
    triangle.Spread .a ∧ ¬ triangle.Spread .c := by
  let r := Quantities.tolerance
  have run : triangle.corner Edge.a.second - triangle.corner Edge.a.first = ⟨r, 0, 0⟩ := by
    change (⟨r - 0, 0 - 0, 0 - 0⟩ : Vec3 ℝ) = _
    rw [sub_zero, sub_zero]
  have off (t : ℝ) : triangle.corner Edge.a.third - triangle.onLine .a t = ⟨r - r * t, 1, 0⟩ := by
    change (⟨r - (0 + (r - 0) * t), 1 - (0 + (0 - 0) * t), 0 - (0 + (0 - 0) * t)⟩ : Vec3 ℝ) = _
    rw [Vec3.mk.injEq]
    refine ⟨?_, ?_, ?_⟩ <;> ring
  have none : triangle.corner Edge.c.second - triangle.corner Edge.c.first = ⟨0, 0, 0⟩ := by
    change (⟨r - r, 1 - 1, 0 - 0⟩ : Vec3 ℝ) = _
    rw [sub_self, sub_self, sub_zero]
  constructor
  · constructor
    case long =>
      rw [run]
      apply Real.le_sqrt_of_sq_le
      change r ^ 2 ≤ r * r + 0 * 0 + 0 * 0
      linarith
    case wide =>
      intro t
      rw [off]
      apply tolerance_le_length small
      have ahead := mul_self_nonneg (r - r * t)
      change 1 ≤ (r - r * t) * (r - r * t) + 1 * 1 + 0 * 0
      linarith
  · intro spread
    have long := spread.long
    have zero : (⟨0, 0, 0⟩ : Vec3 ℝ).length = 0 := by norm_num [Vec3.length, Vec3.dot, Scalar.sqrt]
    rw [none, zero] at long
    exact absurd long (not_le.mpr Quantities.tolerance_pos)

theorem Strip.build_geometry_triangle :
    let _ := Quantities.radians
    let d : Description ℝ := { Description.standard with grammar := "A0C0", seed := Quad.triangle }
    (∃ strip, build ⟨1, 0, 1⟩ { d with grammar := "A0" } = .ok strip) ∧
      ∃ cause, build ⟨1, 0, 1⟩ d = .error (.build d.label (.degenerate ⟨.c, cause⟩)) := by
  intro _ d
  let settings : Settings ℝ := ⟨1, 0, 1⟩
  let wall : Plan ℝ := .fold settings ⟨0, 0⟩ 0 .a .front .quarter 0
  have scanned : Token.ofGrammar "A0C0" = .ok [.fold .a .front .quarter 0, .fold .c .front .quarter 2] := by cbv
  have planned : Plan.ofGrammar settings "A0C0" (0 : ℝ) =
      .ok #[.root 0, wall, .fold settings ⟨1, wall.window.endTime⟩ 0 .c .front .quarter 2] :=
    (Plan.ofGrammar_eq_run scanned settings (0 : ℝ)).trans rfl
  have planned' : Plan.ofGrammar settings "A0" (0 : ℝ) = .ok #[.root 0, wall] :=
    (Plan.ofGrammar_eq_run Token.ofGrammar_wall settings (0 : ℝ)).trans rfl
  have placed (grammar : String) : { d with grammar }.placedSeed = Quad.triangle :=
    Description.placedSeed_eq_seed rfl rfl
  obtain ⟨spread, narrow⟩ := Quad.triangle_spread Quantities.tolerance_radians_le_one
  constructor
  · apply (build_geometry (d := { d with grammar := "A0" }) planned').1.mpr
    rw [placed "A0"]
    intro e named
    cases List.mem_singleton.mp named
    exact spread
  · have refused := (build_geometry (d := d) planned).2.1 [.a] .c [] rfl
    rw [placed "A0C0"] at refused
    exact refused (by simpa using spread) narrow

end HingedPanels
