import HingedPanels.Proofs.Hinge.Frames
import HingedPanels.Proofs.Strip.Appended
import HingedPanels.Proofs.Strip.Hinged

namespace HingedPanels

variable {S : Type} [Scalar S]

/-- The edge has no hinge on the quad, or has none on the quad turned about it. -/
inductive Quad.Unhinged [Trig S] (q : Quad S) (e : Edge) (angle : S) (fault : DegenerateEdge S) : Prop
  | still (refused : q.hinge e = .error fault)
  | turned {pose : Quad S} (turns : q.turnAbout e angle = .ok pose) (refused : pose.hinge e = .error fault)

theorem Quad.Unhinged.edge_eq [Trig S] {q : Quad S} {e : Edge} {angle : S} {fault : DegenerateEdge S}
    (unhinged : q.Unhinged e angle fault) : fault.edge = e := by
  cases unhinged with
  | still refused | turned _ refused => exact edge_of_hinge_error refused

theorem bind_eq_error_iff {ε ε' α β : Type} {step : Except ε α} {name : ε → ε'} {next : α → Except ε' β}
    {cause : ε'} : (step.mapError name >>= next) = .error cause ↔
      (∃ fault, step = .error fault ∧ name fault = cause) ∨ ∃ value, step = .ok value ∧ next value = .error cause := by
  cases step with
  | error fault =>
    change Except.error (name fault) = _ ↔ _
    simp
  | ok value =>
    change next value = _ ↔ _
    simp

theorem mapError_eq_error_iff {ε ε' α : Type} {step : Except ε α} {name : ε → ε'} {cause : ε'} :
    step.mapError name = .error cause ↔ ∃ fault, step = .error fault ∧ name fault = cause := by
  cases step <;> simp [Except.mapError]

theorem Description.checkStart_eq_error_iff {d : Description S} {fault : SettingFault S} :
    d.checkStart = .error fault ↔ Scalar.isFinite d.startTime = false ∧ fault = .startTime d.startTime := by
  unfold checkStart
  cases Scalar.isFinite d.startTime <;> simp [eq_comm]

theorem Description.checkStart_eq_ok_iff {d : Description S} : d.checkStart = .ok () ↔ Scalar.isFinite d.startTime = true := by
  unfold checkStart
  cases Scalar.isFinite d.startTime <;> simp

theorem Plan.parent_lt_of_ofGrammar {settings : Settings S} {grammar : String} {startTime : S}
    {plans : Array (Plan S)} (planned : Plan.ofGrammar settings grammar startTime = .ok plans) (i : Nat)
    (plan : Plan S) (a : Attachment) (there : plans.toList[i]? = some plan) (hangs : plan.attachment = some a) :
    a.parent < i := by
  rcases ofGrammar_reads planned with ⟨_, _, m, _, _, reads, rfl⟩
  exact reads.parent_lt (by simpa using there) hangs

variable [Trig S]

namespace Panel

variable {seed : Quad S} {material : UInt32} {built panels : Array (Panel S)} {plans : List (Plan S)}

theorem material_of_ofPlan {plan : Plan S} {panel : Panel S}
    (made : ofPlan seed material built plan = .ok panel) : panel.material = material := by
  unfold ofPlan at made
  split at made
  case h_1 =>
    cases made
    rfl
  case h_2 =>
    dsimp only at made
    split at made
    · cases made
    · split at made
      · cases made
      · cases made
        rfl

theorem Assembled.material_eq (assembled : Assembled seed material plans panels) {panel : Panel S}
    (member : panel ∈ panels) : panel.material = material := by
  rcases Array.mem_iff_getElem?.mp member with ⟨i, there⟩
  rcases assembled.exists_ofPlan there with ⟨_, _, _, made, _⟩
  exact material_of_ofPlan made

theorem ofPlan_eq_error_iff {plan : Plan S} {a : Attachment} {base : Panel S} {fault : DegenerateEdge S}
    (hangs : plan.attachment = some a) (below : built[a.parent]? = some base) :
    ofPlan seed material built plan = .error fault ↔
      base.rest.Unhinged a.edge (a.face.restTurn plan.target) fault := by
  unfold ofPlan
  rw [hangs]
  dsimp only
  rw [below, Option.map_some, Option.getD_some]
  constructor
  · intro refused
    split at refused
    case h_1 cause turns =>
      cases refused
      exact .still (Quad.turnAbout_eq_error_iff.mp turns)
    case h_2 pose turns =>
      split at refused
      case h_1 unframed =>
        cases refused
        exact .turned turns unframed
      case h_2 => cases refused
  · intro unhinged
    cases unhinged with
    | still refused => rw [Quad.turnAbout_eq_error_iff.mpr refused]
    | turned turns refused =>
      rw [turns]
      dsimp only
      rw [refused]

theorem exists_attachment_of_error {plan : Plan S} {fault : DegenerateEdge S}
    (refused : ofPlan seed material built plan = .error fault) : ∃ a, plan.attachment = some a := by
  unfold ofPlan at refused
  split at refused
  case h_1 => cases refused
  case h_2 hangs => exact ⟨_, hangs⟩

theorem Assembled.assemble_eq (assembled : Assembled seed material plans panels) :
    assemble seed material #[] plans = .ok panels := by
  induction assembled with
  | nil => rfl
  | snoc _ built ih =>
    rw [assemble_append, ih]
    change assemble seed material _ [_] = _
    rw [assemble, built]
    rfl

theorem assemble_eq_error_iff {fault : DegenerateEdge S} : assemble seed material built plans = .error fault ↔
    ∃ before plan after panels, plans = before ++ plan :: after ∧
      assemble seed material built before = .ok panels ∧ ofPlan seed material panels plan = .error fault := by
  constructor
  · -- The panels built so far grow with every plan that goes well.
    intro failed
    induction plans generalizing built with
    | nil => cases failed
    | cons plan plans ih =>
      rw [assemble] at failed
      split at failed
      case h_1 refused =>
        cases failed
        exact ⟨[], plan, plans, built, rfl, rfl, refused⟩
      case h_2 panel made =>
        rcases ih failed with ⟨before, stuck, after, panels, parts, assembled, refused⟩
        refine ⟨plan :: before, stuck, after, panels, congrArg _ parts, ?_, refused⟩
        rw [assemble, made]
        exact assembled
  · intro stuck
    rcases stuck with ⟨before, plan, after, panels, rfl, assembled, refused⟩
    rw [assemble_append, assembled]
    change assemble seed material panels (plan :: after) = _
    rw [assemble, refused]

inductive Stuck (seed : Quad S) (material : UInt32) (before : List (Plan S)) (plan : Plan S)
    (fault : DegenerateEdge S) : Prop
  | intro {earlier : Array (Panel S)} {a : Attachment} {base : Panel S}
      (assembled : Assembled seed material before earlier) (hangs : plan.attachment = some a)
      (below : earlier[a.parent]? = some base) (edge_eq : fault.edge = a.edge)
      (unhinged : base.rest.Unhinged a.edge (a.face.restTurn plan.target) fault)

theorem stuck_iff {fault : DegenerateEdge S}
    (ordered : ∀ (i : Nat) plan a, plans[i]? = some plan → plan.attachment = some a → a.parent < i) :
    assemble seed material #[] plans = .error fault ↔
      ∃ before plan after, plans = before ++ plan :: after ∧ Stuck seed material before plan fault := by
  rw [assemble_eq_error_iff]
  constructor
  · intro failed
    rcases failed with ⟨before, plan, after, earlier, rfl, made, refused⟩
    have assembled : Assembled seed material before earlier := assembled_of_assemble .nil made
    rcases exists_attachment_of_error refused with ⟨a, hangs⟩
    have lower : a.parent < before.length := ordered before.length plan a (by simp) hangs
    have below : earlier[a.parent]? = some _ := Array.getElem?_eq_getElem (assembled.size_eq ▸ lower)
    have unhinged := (ofPlan_eq_error_iff hangs below).mp refused
    exact ⟨before, plan, after, rfl, ⟨assembled, hangs, below, unhinged.edge_eq, unhinged⟩⟩
  · intro failed
    rcases failed with ⟨before, plan, after, parts, assembled, hangs, below, _, unhinged⟩
    exact ⟨before, plan, after, _, parts, assembled.assemble_eq, (ofPlan_eq_error_iff hangs below).mpr unhinged⟩

end Panel

/-- Why a description is refused. A reason counts only if none of those before it applies. -/
inductive Description.Refused (settings : Settings S) (d : Description S) : Fault S → Prop
  | start (endless : Scalar.isFinite d.startTime = false) : Refused settings d (.setting (.startTime d.startTime))
  | seed (started : Scalar.isFinite d.startTime = true) {i : Fin 4} (strays : d.placedSeed.StraysAt i) :
      Refused settings d (.degenerate ⟨.ofIndex i, .notFinite i (d.placedSeed.corner i)⟩)
  | grammar (started : Scalar.isFinite d.startTime = true) (placed : ∀ i, (d.placedSeed.corner i).isFinite = true)
      {error : GrammarError} (unread : Plan.ofGrammar settings d.grammar d.startTime = .error error) :
      Refused settings d (.grammar error)
  | panel (started : Scalar.isFinite d.startTime = true) (placed : ∀ i, (d.placedSeed.corner i).isFinite = true)
      {plans : Array (Plan S)} (planned : Plan.ofGrammar settings d.grammar d.startTime = .ok plans)
      {before after : List (Plan S)} {plan : Plan S} (parts : plans.toList = before ++ plan :: after)
      {fault : DegenerateEdge S} (stuck : Panel.Stuck d.placedSeed d.material before plan fault) :
      Refused settings d (.degenerate fault)

namespace Description

variable {settings : Settings S} {d : Description S} {cause : Fault S}

theorem panels_eq_error_iff : d.panels settings = .error cause ↔ d.Refused settings cause := by
  unfold panels
  simp only [bind_eq_error_iff, mapError_eq_error_iff, checkStart_eq_error_iff, Quad.requireFinite_eq_error_iff]
  constructor
  · -- One step after the other fails, or succeeds and leaves the fault to those after it.
    intro failed
    rcases failed with ⟨_, ⟨endless, rfl⟩, rfl⟩ | ⟨_, started, failed⟩
    · exact .start endless
    have started := checkStart_eq_ok_iff.mp started
    rcases failed with ⟨_, ⟨i, strays, rfl⟩, rfl⟩ | ⟨_, placed, failed⟩
    · exact .seed started strays
    have placed := Quad.requireFinite_eq_ok_iff.mp placed
    rcases failed with ⟨error, unread, rfl⟩ | ⟨plans, planned, fault, stops, rfl⟩
    · exact .grammar started placed unread
    rcases (Panel.stuck_iff (Plan.parent_lt_of_ofGrammar planned)).mp stops with ⟨before, plan, after, parts, stuck⟩
    exact .panel started placed planned parts stuck
  · intro refused
    cases refused with
    | start endless => exact .inl ⟨_, ⟨endless, rfl⟩, rfl⟩
    | seed started strays =>
      exact .inr ⟨(), checkStart_eq_ok_iff.mpr started, .inl ⟨_, ⟨_, strays, rfl⟩, rfl⟩⟩
    | grammar started placed unread =>
      exact .inr ⟨(), checkStart_eq_ok_iff.mpr started, .inr ⟨(), Quad.requireFinite_eq_ok_iff.mpr placed,
        .inl ⟨_, unread, rfl⟩⟩⟩
    | panel started placed planned parts stuck =>
      have stops := (Panel.stuck_iff (Plan.parent_lt_of_ofGrammar planned)).mpr ⟨_, _, _, parts, stuck⟩
      exact .inr ⟨(), checkStart_eq_ok_iff.mpr started, .inr ⟨(), Quad.requireFinite_eq_ok_iff.mpr placed,
        .inr ⟨_, planned, _, stops, rfl⟩⟩⟩

theorem Refused.continued {fault : DegenerateEdge S} (refused : d.Refused settings (.degenerate fault))
    {after : String} {longer : Array (Plan S)}
    (planned' : Plan.ofGrammar settings (d.grammar ++ after) d.startTime = .ok longer) :
    Description.Refused settings { d with grammar := d.grammar ++ after } (.degenerate fault) := by
  cases refused with
  | seed started strays => exact .seed (d := { d with grammar := d.grammar ++ after }) started strays
  | panel started placed planned parts stuck =>
    rcases Plan.ofGrammar_reads planned with ⟨_, _, _, scanned, _⟩
    rcases Plan.ofGrammar_of_append scanned planned' with ⟨plans, same, ⟨more, onward⟩, _⟩
    rw [planned] at same
    cases same
    rw [parts, List.append_assoc] at onward
    exact .panel (d := { d with grammar := d.grammar ++ after }) started placed planned' onward.symm stuck

theorem Refused.plain (refused : d.Refused settings cause) :
    (∀ label inner, cause ≠ .build label inner) ∧ ∀ label, cause ≠ .labelInUse label := by
  cases refused <;> simp

end Description

namespace Strip

variable {settings : Settings S} {d : Description S}

theorem build_refused_iff {fault : Fault S} : build settings d = .error fault ↔
    ∃ cause, fault = .build d.label cause ∧ d.Refused settings cause := by
  rw [build_eq_error_iff]
  simp only [Description.panels_eq_error_iff]

/-- A description comes to a strip of its own label and material, or to a fault that names it and tells the first
reason to refuse it. If that is a quad without a hinge, more text changes nothing as long as it can be planned. -/
theorem build_outcome (settings : Settings S) (d : Description S) :
    (∀ s, build settings d = .ok s → s.label = d.label ∧ ∀ panel ∈ s.panels, panel.material = d.material) ∧
    (∀ fault, build settings d = .error fault ↔
      ∃ cause, fault = .build d.label cause ∧ d.Refused settings cause) ∧
    (∀ cause, d.Refused settings cause →
      (∀ label inner, cause ≠ .build label inner) ∧ ∀ label, cause ≠ .labelInUse label) ∧
    ∀ fault after longer, build settings d = .error (.build d.label (.degenerate fault)) →
      Plan.ofGrammar settings (d.grammar ++ after) d.startTime = .ok longer →
      build settings { d with grammar := d.grammar ++ after } = .error (.build d.label (.degenerate fault)) := by
  refine ⟨?_, fun _ => build_refused_iff, fun _ refused => refused.plain, ?_⟩
  · intro s built
    rcases of_build built with ⟨_, _, _, _, assembled⟩
    exact ⟨(build_eq_ok_iff.mp built).2, fun _ member => assembled.material_eq member⟩
  · intro fault after longer failed planned
    rcases build_refused_iff.mp failed with ⟨_, same, refused⟩
    cases same
    exact build_refused_iff.mpr ⟨_, rfl, refused.continued planned⟩

end Strip

/-- Two panels on a quad that has three corners on one line, and so no hinge on its second edge. -/
def Description.bent : Description Float32 :=
  { Description.standard with grammar := "A0B0", seed := ⟨0, ⟨1, 0, 0⟩, ⟨1, 1, 0⟩, ⟨1, 2, 0⟩⟩ }

theorem Strip.build_outcome_bent : ∃ s : Strip Float32,
    @build _ _ tableTrig .standard .corner = .ok s ∧ (∀ panel ∈ s.panels, panel.material = 0) ∧
    @Description.Refused _ _ tableTrig .standard .bent (.degenerate ⟨.b, .collinear 3⟩) ∧
    @build _ _ tableTrig .standard { Description.bent with grammar := "A0B0" ++ "C0" } =
      .error (.build "strip" (.degenerate ⟨.b, .collinear 3⟩)) := by
  let _ : Trig Float32 := tableTrig
  have succeeds : ((build .standard .corner).toOption.any fun s : Strip Float32 => s.panels.size = 3) = true := by
    decide +kernel
  rcases exists_ok_of_any succeeds with ⟨s, built, _⟩
  have fails : build .standard .bent = .error (.build "strip" (.degenerate ⟨.b, .collinear 3⟩)) := by
    decide +kernel
  have plans : ((Plan.ofGrammar .standard ("A0B0" ++ "C0") (0 : Float32)).toOption.any
      fun plans => plans.size = 4) = true := by
    decide +kernel
  rcases exists_ok_of_any plans with ⟨longer, planned, _⟩
  rcases (build_outcome .standard .corner).1 s built with ⟨_, material⟩
  rcases build_outcome .standard .bent with ⟨_, refusals, _, onward⟩
  rcases (refusals _).mp fails with ⟨_, same, refused⟩
  cases same
  exact ⟨s, built, material, refused, onward _ "C0" longer fails planned⟩

end HingedPanels
