import HingedPanels.Animation.Frame
import HingedPanels.Proofs.Animation.Store
import HingedPanels.Proofs.Single.Latest
import HingedPanels.Proofs.Strip.Cascade
import HingedPanels.Proofs.Strip.Hinged
import Mathlib

namespace HingedPanels

open Single

namespace Panel

variable {p : Panel Float32} {time : Float32}

theorem phaseAt_eq_settled_iff (pivots : p.pivot ≠ none) (ordered : p.window.startTime ≤ p.window.endTime) :
    p.phaseAt time = .settled ↔ p.window.endTime ≤ time := by
  constructor
  · intro rests
    by_contra early
    have held : ¬ p.pivot.isNone = true := by simpa using pivots
    rw [phaseAt, if_neg held, if_neg early] at rests
    split at rests <;> cases rests
  · exact settled_of_le ordered

end Panel

section Members

variable {S : Type} [Scalar S] [Trig S]

theorem Strip.mem_sample_iff {s : Strip S} {time : S} {x : Sample S} :
    x ∈ s.sample time ↔ ∃ panel, s.panels[x.index]? = some panel ∧ x = panel.sample x.index time := by
  rw [Strip.sample, List.mem_mapIdx]
  constructor
  · rintro ⟨i, bound, rfl⟩
    refine ⟨s.panels.toList[i], ?_, rfl⟩
    rw [← Array.getElem?_toList]
    exact List.getElem?_eq_getElem bound
  · rintro ⟨panel, there, same⟩
    rw [← Array.getElem?_toList] at there
    obtain ⟨bound, rfl⟩ := List.getElem?_eq_some_iff.mp there
    exact ⟨x.index, bound, same.symm⟩

theorem Strip.forall_mem_sample_iff {s : Strip S} {time : S} {P : Phase S → Prop} :
    (∀ x ∈ s.sample time, P x.phase) ↔ ∀ panel ∈ s.panels, P (panel.phaseAt time) := by
  constructor
  · intro all panel member
    obtain ⟨i, there⟩ := Array.mem_iff_getElem?.mp member
    exact all (panel.sample i time) (mem_sample_iff.mpr ⟨panel, there, rfl⟩)
  · intro all x member
    obtain ⟨panel, there, same⟩ := mem_sample_iff.mp member
    rw [same]
    exact all panel (Array.mem_iff_getElem?.mpr ⟨_, there⟩)

theorem Animation.mem_frame_iff {a : Animation S} {time : S} {x : Tagged S} :
    x ∈ a.frame time ↔ ∃ s panel, a.strip? x.strip = some s ∧ s.panels[x.panel.index]? = some panel ∧
      x.panel = panel.sample x.panel.index time := by
  simp only [frame, numbered, tag, List.mem_flatMap, List.mem_mapIdx, List.mem_map, Strip.mem_sample_iff]
  constructor
  · rintro ⟨_, ⟨i, bound, rfl⟩, sample, ⟨panel, place, same⟩, rfl⟩
    refine ⟨a.strips.toList[i], panel, ?_, place, same⟩
    rw [strip?, ← Array.getElem?_toList]
    exact List.getElem?_eq_getElem bound
  · rintro ⟨s, panel, there, place, same⟩
    rw [strip?, ← Array.getElem?_toList] at there
    obtain ⟨bound, rfl⟩ := List.getElem?_eq_some_iff.mp there
    exact ⟨_, ⟨x.strip, bound, rfl⟩, x.panel, ⟨panel, place, same⟩, rfl⟩

end Members

namespace Strip

variable {s : Strip Float32} {root : Panel Float32} {time : Float32}

theorem number_endTime (s : Strip Float32) : s.endTime.isNaN = false := number_foldl_later _ rfl

theorem Cascades.isSettled_iff (cascades : s.Cascades) :
    s.isSettled time = true ↔ time.isNaN = false ∧ ∀ panel ∈ s.panels, panel.window.endTime ≤ time := by
  have numbers : ∀ panel ∈ s.panels.toList, panel.window.endTime.isNaN = false := by
    intro panel member
    obtain ⟨i, there⟩ := Array.mem_iff_getElem?.mp (Array.mem_toList_iff.mp member)
    exact (cascades.numbers there).2
  rw [isSettled, decide_eq_true_iff, endTime, latest_le_iff numbers]
  simp only [Array.mem_toList_iff]

theorem Cascades.settled_of_isSettled (cascades : s.Cascades) (settled : s.isSettled time = true) :
    ∀ panel ∈ s.panels, panel.phaseAt time = .settled := by
  intro panel member
  obtain ⟨i, there⟩ := Array.mem_iff_getElem?.mp member
  exact Panel.settled_of_le (cascades.start_le_end there) ((cascades.isSettled_iff.mp settled).2 panel member)

theorem Cascades.isSettled_of_settled (cascades : s.Cascades) (first : s.panels[0]? = some root)
    (still : root.window.endTime = root.window.startTime) (hanging : 1 < s.panels.size)
    (settled : ∀ panel ∈ s.panels, panel.phaseAt time = .settled) : s.isSettled time = true := by
  have ended {i : Nat} {panel : Panel Float32} (there : s.panels[i]? = some panel) (later : i ≠ 0) :
      panel.window.endTime ≤ time := by
    have pivots : panel.pivot ≠ none := fun free => later ((cascades.root_iff there).2.mp free)
    exact (Panel.phaseAt_eq_settled_iff pivots (cascades.start_le_end there)).mp
      (settled panel (Array.mem_of_getElem? there))
  have second : s.panels[1]? = some s.panels[1] := Array.getElem?_eq_getElem hanging
  have past : s.panels[1].window.endTime ≤ time := ended second (by decide)
  rw [cascades.isSettled_iff]
  refine ⟨number_right past, ?_⟩
  intro panel member
  obtain ⟨i, there⟩ := Array.mem_iff_getElem?.mp member
  by_cases later : i = 0
  · rw [later, first] at there
    cases there
    obtain ⟨root', first', started⟩ := cascades.root_le second
    rw [first] at first'
    cases first'
    rw [still]
    exact le_trans_single started (le_trans_single (cascades.start_le_end second) past)
  · exact ended there later

theorem Cascades.isSettled_of_single (cascades : s.Cascades) (first : s.panels[0]? = some root)
    (single : s.panels.size = 1) : s.isSettled time = true ↔ root.window.endTime ≤ time := by
  have only : s.panels = #[root] := by
    apply Array.ext_getElem?
    intro i
    cases i with
    | zero => exact first
    | succ i => simp [single]
  rw [cascades.isSettled_iff, only]
  simpa using fun ended : root.window.endTime ≤ time => number_right ended

theorem root_of_build [Trig Float32] {settings : Settings Float32} {d : Description Float32}
    (built : Strip.build settings d = .ok s) :
    ∃ root, s.panels[0]? = some root ∧ root.window = .still d.startTime := by
  obtain ⟨plans, _, _, planned, assembled⟩ := Strip.of_build built
  obtain ⟨_, _, m, _, _, reads, rfl⟩ := Plan.ofGrammar_reads planned
  rcases assembled.exists_panel (by simpa using reads.root_eq) with ⟨root, there, builds⟩
  exact ⟨root, there, builds.window_eq⟩

end Strip

namespace Animation

variable {a : Animation Float32} {time : Float32}

theorem isSettled_iff (a : Animation Float32) (time : Float32) :
    a.isSettled time = true ↔ time.isNaN = false ∧ ∀ s ∈ a.strips, s.isSettled time = true := by
  rw [isSettled, decide_eq_true_iff, endTime, latest_le_iff fun s _ => s.number_endTime]
  simp only [Array.mem_toList_iff, Strip.isSettled, decide_eq_true_iff]

theorem Reached.cascades [Trig Float32] (reached : a.Reached) {id : Nat} {s : Strip Float32}
    (there : a.strip? id = some s) : s.Cascades := by
  obtain ⟨d, built⟩ := reached.exists_build there
  exact Strip.cascades_of_build (Settings.sound_of_check reached.check_settings) built

theorem Reached.frame_at_rest [Trig Float32] (reached : a.Reached) (settled : a.isSettled time = true)
    {x : Tagged Float32} (member : x ∈ a.frame time) :
    x.panel.visible = true ∧ ∃ s panel, a.strip? x.strip = some s ∧ s.panels[x.panel.index]? = some panel ∧
      x.panel.geometry = panel.rest := by
  obtain ⟨s, panel, there, place, same⟩ := mem_frame_iff.mp member
  have strip_settled := ((isSettled_iff a time).mp settled).2 s (mem_strips_iff.mpr ⟨_, there⟩)
  have rests := (reached.cascades there).settled_of_isSettled strip_settled panel (Array.mem_of_getElem? place)
  refine ⟨?_, s, panel, there, place, ?_⟩
  · rw [same, Panel.sample, rests]
    rfl
  · rw [same, Panel.sample, rests]
    exact panel.geometry_settled

/-- The settled queries of an animation that has come about. A strip with a hanging panel rests when all
its panels do, a lone root from its start on, and an animation when all its strips do; from then on a frame
shows every panel in its pose at rest. -/
theorem Reached.settled [Trig Float32] (reached : a.Reached) (time : Float32) :
    (∀ id s, a.strip? id = some s → ∃ root, s.panels[0]? = some root ∧
      (∀ d, Strip.build a.settings d = .ok s → root.window.startTime = d.startTime) ∧
      (s.panels.size = 1 → (s.isSettled time = true ↔ root.window.startTime ≤ time)) ∧
      (1 < s.panels.size → (s.isSettled time = true ↔ ∀ x ∈ s.sample time, x.phase = .settled))) ∧
    (a.isSettled time = true ↔ time.isNaN = false ∧ ∀ s ∈ a.strips, s.isSettled time = true) ∧
    (a.isSettled time = true → ∀ x ∈ a.frame time, x.panel.visible = true ∧
      ∃ s panel, a.strip? x.strip = some s ∧ s.panels[x.panel.index]? = some panel ∧
        x.panel.geometry = panel.rest) := by
  refine ⟨?_, isSettled_iff a time, fun settled x member => reached.frame_at_rest settled member⟩
  intro id s there
  obtain ⟨d, built⟩ := reached.exists_build there
  obtain ⟨root, first, window⟩ := Strip.root_of_build built
  have still : root.window.endTime = root.window.startTime := by rw [window]; rfl
  refine ⟨root, first, ?_, ?_, ?_⟩
  · intro d' built'
    obtain ⟨root', first', window'⟩ := Strip.root_of_build built'
    rw [first] at first'
    cases first'
    rw [window']
    rfl
  · intro single
    rw [← still]
    exact (reached.cascades there).isSettled_of_single first single
  · intro hanging
    rw [Strip.forall_mem_sample_iff (P := (· = .settled))]
    exact ⟨(reached.cascades there).settled_of_isSettled,
      (reached.cascades there).isSettled_of_settled first still hanging⟩

end Animation

def Description.post : Description Float32 :=
  { Description.standard with label := "post", startTime := Float32.ofBits 0x3f000000 }

/-- The corner of a box and a post, while the box still folds up and after a second. -/
theorem Animation.Reached.settled_corner : ∃ (a : Animation Float32) (s : Strip Float32),
    @Animation.Reached _ _ tableTrig a ∧ a.panelCount = 4 ∧ a.strip? 0 = some s ∧
      (¬ ∀ x ∈ @Strip.sample _ _ tableTrig s (Float32.ofBits 0x3f000000), x.phase = .settled) ∧
      a.isSettled 1 = true ∧ ∀ x ∈ @Animation.frame _ _ tableTrig a 1, x.panel.visible = true := by
  let _ : Trig Float32 := tableTrig
  let a := (Animation.addAll ⟨Settings.standard, #[], []⟩ [.corner, .post]).1
  have reached : a.Reached := Animation.Reached.standard.addAll _
  have computed : a.panelCount = 4 ∧ a.isSettled 1 = true ∧
      ((a.strip? 0).any fun s => 1 < s.panels.size ∧ s.isSettled (Float32.ofBits 0x3f000000) = false) = true := by
    decide +kernel
  obtain ⟨count, rests, built⟩ := computed
  obtain ⟨s, there, built⟩ := (Option.any_eq_true _ _).mp built
  obtain ⟨hanging, folding⟩ := of_decide_eq_true built
  obtain ⟨_, _, _, _, phases⟩ := (reached.settled (Float32.ofBits 0x3f000000)).1 0 s there
  refine ⟨a, s, reached, count, there, ?_, rests, ?_⟩
  · rw [← phases hanging, folding]
    exact Bool.false_ne_true
  · intro x member
    exact ((reached.settled 1).2.2 rests x member).1

end HingedPanels
