import HingedPanels.Strip.Build

namespace HingedPanels

variable {S : Type} [Scalar S] [Trig S]

structure Panel.Builds (panel : Panel S) (plan : Plan S) : Prop where
  window_eq : panel.window = plan.window
  depth_eq : panel.depth = plan.depth
  parent_eq : panel.parent = plan.attachment.map (·.parent)
  pivot_eq : panel.pivot = plan.attachment.map (·.edge)
  face_eq : panel.face = plan.attachment.map (·.face)
  offset_eq : panel.offset = plan.attachment.map (·.offset)

inductive Panel.Assembled (seed : Quad S) (material : UInt32) : List (Plan S) → Array (Panel S) → Prop
  | nil : Assembled seed material [] #[]
  | snoc {plans panels plan panel} (assembled : Assembled seed material plans panels)
      (built : ofPlan seed material panels plan = .ok panel) :
      Assembled seed material (plans ++ [plan]) (panels.push panel)

namespace Panel

variable {seed : Quad S} {material : UInt32}

theorem builds_of_ofPlan {earlier : Array (Panel S)} {plan : Plan S} {panel : Panel S}
    (built : ofPlan seed material earlier plan = .ok panel) : panel.Builds plan := by
  unfold ofPlan at built
  split at built
  case h_1 free =>
    cases built
    constructor <;> simp [free]
  case h_2 parent edge face offset hangs =>
    dsimp only at built
    split at built
    · cases built
    · split at built
      · cases built
      · cases built
        constructor <;> simp [hangs]

theorem assembled_of_assemble {before plans : List (Plan S)} {earlier panels : Array (Panel S)}
    (assembled : Assembled seed material before earlier)
    (made : assemble seed material earlier plans = .ok panels) :
    Assembled seed material (before ++ plans) panels := by
  induction plans generalizing before earlier with
  | nil =>
    cases made
    simpa using assembled
  | cons plan rest ih =>
    rw [assemble] at made
    split at made
    · cases made
    · rename_i panel built
      simpa using ih (.snoc assembled built) made

theorem Assembled.size_eq {plans : List (Plan S)} {panels : Array (Panel S)}
    (assembled : Assembled seed material plans panels) : panels.size = plans.length := by
  induction assembled with
  | nil => rfl
  | snoc _ _ ih => simp [ih]

theorem Assembled.exists_plan {plans : List (Plan S)} {panels : Array (Panel S)}
    (assembled : Assembled seed material plans panels) {i : Nat} {panel : Panel S}
    (there : panels[i]? = some panel) : ∃ plan, plans[i]? = some plan ∧ panel.Builds plan := by
  induction assembled with
  | nil => cases there
  | @snoc plans panels plan last assembled built ih =>
    have size := assembled.size_eq
    rw [Array.getElem?_push] at there
    split at there
    case isTrue final =>
      cases there
      refine ⟨plan, ?_, builds_of_ofPlan built⟩
      rw [final, size]
      exact List.getElem?_concat_length
    case isFalse =>
      rcases ih there with ⟨earlier, planned, builds⟩
      have bound := (List.getElem?_eq_some_iff.mp planned).1
      exact ⟨earlier, by rw [List.getElem?_append_left bound]; exact planned, builds⟩

theorem Assembled.exists_panel {plans : List (Plan S)} {panels : Array (Panel S)}
    (assembled : Assembled seed material plans panels) {i : Nat} {plan : Plan S}
    (planned : plans[i]? = some plan) : ∃ panel, panels[i]? = some panel ∧ panel.Builds plan := by
  have bound : i < panels.size := by
    rw [assembled.size_eq]
    exact (List.getElem?_eq_some_iff.mp planned).1
  have there : panels[i]? = some panels[i] := Array.getElem?_eq_getElem bound
  rcases assembled.exists_plan there with ⟨plan', planned', builds⟩
  rw [planned] at planned'
  cases planned'
  exact ⟨panels[i], there, builds⟩

end Panel

theorem exists_ok_of_bind {ε ε' α β : Type} {step : Except ε α} {name : ε → ε'} {next : α → Except ε' β}
    {result : β} (made : (step.mapError name >>= next) = .ok result) :
    ∃ value, step = .ok value ∧ next value = .ok result := by
  cases step with
  | error fault => cases made
  | ok value => exact ⟨value, rfl, made⟩

theorem exists_ok_of_any {ε α : Type} {result : Except ε α} {test : α → Bool}
    (passes : result.toOption.any test = true) : ∃ value, result = .ok value ∧ test value = true := by
  cases result with
  | error fault => cases passes
  | ok value => exact ⟨value, rfl, passes⟩

theorem Description.panels_eq_ok_iff {settings : Settings S} {d : Description S} {panels : Array (Panel S)} :
    d.panels settings = .ok panels ↔
      ∃ plans, Scalar.isFinite d.startTime = true ∧ d.placedSeed.requireFinite = .ok () ∧
        Plan.ofGrammar settings d.grammar d.startTime = .ok plans ∧
        Panel.assemble d.placedSeed d.material #[] plans.toList = .ok panels := by
  constructor
  · intro made
    unfold Description.panels at made
    obtain ⟨_, started, made⟩ := exists_ok_of_bind made
    obtain ⟨_, placed, made⟩ := exists_ok_of_bind made
    obtain ⟨plans, planned, made⟩ := exists_ok_of_bind made
    refine ⟨plans, ?_, placed, planned, ?_⟩
    · unfold checkStart at started
      split at started
      · assumption
      · cases started
    · cases assembled : Panel.assemble d.placedSeed d.material #[] plans.toList with
      | error fault =>
        rw [assembled] at made
        cases made
      | ok all =>
        rw [assembled] at made
        cases made
        rfl
  · rintro ⟨plans, started, placed, planned, assembled⟩
    rw [Description.panels, checkStart, if_pos started, placed, planned]
    change (Panel.assemble d.placedSeed d.material #[] plans.toList).mapError Fault.degenerate = _
    rw [assembled]
    rfl

theorem Strip.build_eq_ok_iff {settings : Settings S} {d : Description S} {s : Strip S} :
    Strip.build settings d = .ok s ↔ d.panels settings = .ok s.panels ∧ s.label = d.label := by
  obtain ⟨label, panels⟩ := s
  unfold Strip.build
  cases d.panels settings with
  | ok made => simp [and_comm, eq_comm]
  | error cause => simp

theorem Strip.build_eq_error_iff {settings : Settings S} {d : Description S} {fault : Fault S} :
    Strip.build settings d = .error fault ↔ ∃ cause, fault = .build d.label cause ∧ d.panels settings = .error cause := by
  unfold Strip.build
  cases d.panels settings <;> simp [eq_comm]

theorem Strip.of_build {settings : Settings S} {d : Description S} {s : Strip S}
    (built : Strip.build settings d = .ok s) :
    ∃ plans, Scalar.isFinite d.startTime = true ∧ d.placedSeed.requireFinite = .ok () ∧
      Plan.ofGrammar settings d.grammar d.startTime = .ok plans ∧
      Panel.Assembled d.placedSeed d.material plans.toList s.panels := by
  obtain ⟨plans, started, placed, planned, assembled⟩ :=
    Description.panels_eq_ok_iff.mp (Strip.build_eq_ok_iff.mp built).1
  exact ⟨plans, started, placed, planned, Panel.assembled_of_assemble .nil assembled⟩

/-- Sine and cosine, to the nearest number, of the angles by which a box's corner and a few other strips turn. -/
def sineAndCosine (angle : Float32) : Float32 × Float32 :=
  match angle.toBits with
  | 0x3fc90fdb => (1, Float32.ofBits 0xb33bbd2e) -- a quarter turn
  | 0xbfc90fdb => (Float32.ofBits 0xbf800000, Float32.ofBits 0xb33bbd2e) -- and one backwards
  | 0x40490fdb => (Float32.ofBits 0xb3bbbd2e, Float32.ofBits 0xbf800000) -- a half turn
  | 0x4096cbe4 => (Float32.ofBits 0xbf800000, Float32.ofBits 0x324cde2e) -- three quarters of a turn
  | 0xbf71463a => (Float32.ofBits 0xbf4f1bbd, Float32.ofBits 0x3f167918) -- three fifths of a quarter turn backwards
  | _ => (0, 1)

abbrev tableTrig : Trig Float32 := ⟨fun angle => (sineAndCosine angle).1, fun angle => (sineAndCosine angle).2⟩

def Description.corner : Description Float32 := { Description.standard with grammar := "A0{B0}" }

end HingedPanels
