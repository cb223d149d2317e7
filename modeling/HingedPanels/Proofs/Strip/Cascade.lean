import HingedPanels.Proofs.Animation.Reached
import HingedPanels.Proofs.Plan.Order
import HingedPanels.Proofs.Strip.Assembled

namespace HingedPanels

open Single

namespace Strip

def Hangs {S : Type} (s : Strip S) (child parent : Nat) : Prop :=
  ∃ panel, s.panels[child]? = some panel ∧ panel.parent = some parent

/-- A panel, the one it hangs on, the one that this hangs on, and so forth. -/
def Ancestor {S : Type} (s : Strip S) : Nat → Nat → Prop := Relation.TransGen s.Hangs

/-- The windows of a strip are ordered along its tree, and only its root rests at all times. -/
structure Cascades (s : Strip Float32) : Prop where
  numbers : ∀ {i : Nat} {panel : Panel Float32}, s.panels[i]? = some panel →
    panel.window.startTime.isNaN = false ∧ panel.window.endTime.isNaN = false
  root_le : ∀ {i : Nat} {panel : Panel Float32}, s.panels[i]? = some panel →
    ∃ root, s.panels[0]? = some root ∧ root.window.startTime ≤ panel.window.startTime
  start_le_end : ∀ {i : Nat} {panel : Panel Float32}, s.panels[i]? = some panel →
    panel.window.startTime ≤ panel.window.endTime
  parent_le : ∀ {i : Nat} {panel : Panel Float32}, s.panels[i]? = some panel → i ≠ 0 →
    ∃ number base, panel.parent = some number ∧ s.panels[number]? = some base ∧
      base.window.endTime ≤ panel.window.startTime
  root_iff : ∀ {i : Nat} {panel : Panel Float32}, s.panels[i]? = some panel →
    (panel.parent = none ↔ i = 0) ∧ (panel.pivot = none ↔ i = 0)

end Strip

namespace Panel

variable {p : Panel Float32} {time : Float32}

theorem settled_of_le (ordered : p.window.startTime ≤ p.window.endTime) (ended : p.window.endTime ≤ time) :
    p.phaseAt time = .settled := by
  have started : ¬ time < p.window.startTime :=
    (not_lt_iff_le (number_right ended) (number_left ordered)).mpr (le_trans_single ordered ended)
  unfold phaseAt
  by_cases free : p.pivot.isNone = true
  · rw [if_pos free]
  · rw [if_neg free, if_neg started, if_pos ended]

theorem le_of_not_dormant (pivots : p.pivot ≠ none) (number : time.isNaN = false)
    (number' : p.window.startTime.isNaN = false) (shown : p.phaseAt time ≠ .dormant) :
    p.window.startTime ≤ time := by
  have held : ¬ p.pivot.isNone = true := by simpa using pivots
  unfold phaseAt at shown
  rw [if_neg held] at shown
  apply (not_lt_iff_le number number').mp
  intro early
  exact shown (if_pos early)

end Panel

namespace Strip

variable {s : Strip Float32} {time : Float32}

theorem Cascades.parent_settled (cascades : s.Cascades) (number : time.isNaN = false) {i below : Nat}
    {panel : Panel Float32} (there : s.panels[i]? = some panel) (hangs : panel.parent = some below)
    (shown : panel.phaseAt time ≠ .dormant) :
    ∃ base, s.panels[below]? = some base ∧ base.phaseAt time = .settled := by
  have later : i ≠ 0 := by
    intro first
    have free := (cascades.root_iff there).1.mpr first
    rw [hangs] at free
    cases free
  rcases cascades.parent_le there later with ⟨below', base, hangs', there', ended⟩
  rw [hangs] at hangs'
  cases hangs'
  have pivots : panel.pivot ≠ none := fun free => later ((cascades.root_iff there).2.mp free)
  have started := Panel.le_of_not_dormant pivots number (cascades.numbers there).1 shown
  have ordered := cascades.start_le_end there'
  exact ⟨base, there', Panel.settled_of_le ordered (le_trans_single ended started)⟩

theorem Cascades.ancestor_settled (cascades : s.Cascades) (number : time.isNaN = false) {i j : Nat}
    {panel : Panel Float32} (there : s.panels[i]? = some panel) (shown : panel.phaseAt time ≠ .dormant)
    (ancestor : s.Ancestor i j) : ∃ base, s.panels[j]? = some base ∧ base.phaseAt time = .settled := by
  -- What rests is seen, so one step down the tree allows the next.
  induction ancestor with
  | single hangs =>
    rcases hangs with ⟨panel', there', hangs⟩
    rw [there] at there'
    cases there'
    exact cascades.parent_settled number there hangs shown
  | tail _ hangs ih =>
    rcases ih with ⟨base, there', settled⟩
    rcases hangs with ⟨base', there'', hangs⟩
    rw [there'] at there''
    cases there''
    exact cascades.parent_settled number there' hangs (by simp [settled])

def shown [Trig Float32] (s : Strip Float32) (time : Float32) : List Nat := (s.visible time).map (·.index)

theorem mem_shown_iff [Trig Float32] {i : Nat} :
    i ∈ s.shown time ↔ ∃ panel, s.panels[i]? = some panel ∧ panel.phaseAt time ≠ .dormant := by
  have visible_iff (panel : Panel Float32) (i : Nat) :
      (panel.sample i time).visible = true ↔ panel.phaseAt time ≠ .dormant := by
    unfold Panel.sample
    cases panel.phaseAt time <;> simp [Phase.isVisible]
  simp only [shown, Strip.visible, Strip.sample, List.mem_map, List.mem_filter, List.mem_mapIdx]
  constructor
  · rintro ⟨_, ⟨⟨k, bound, rfl⟩, seen⟩, rfl⟩
    refine ⟨s.panels.toList[k], ?_, (visible_iff _ k).mp seen⟩
    rw [← Array.getElem?_toList]
    exact List.getElem?_eq_getElem bound
  · rintro ⟨panel, there, seen⟩
    rw [← Array.getElem?_toList] at there
    obtain ⟨bound, rfl⟩ := List.getElem?_eq_some_iff.mp there
    exact ⟨_, ⟨⟨i, bound, rfl⟩, (visible_iff _ i).mpr seen⟩, rfl⟩

theorem Cascades.parent_shown [Trig Float32] (cascades : s.Cascades) (number : time.isNaN = false) {i below : Nat}
    (member : i ∈ s.shown time) (hangs : s.Hangs i below) : below ∈ s.shown time := by
  obtain ⟨panel, there, seen⟩ := mem_shown_iff.mp member
  rcases cascades.ancestor_settled number there seen (.single hangs) with ⟨base, there', settled⟩
  exact mem_shown_iff.mpr ⟨base, there', by simp [settled]⟩

theorem cascades_of_build [Trig Float32] {settings : Settings Float32} (sound : settings.Sound) {d : Description Float32}
    (built : Strip.build settings d = .ok s) : s.Cascades := by
  obtain ⟨plans, started, _, planned, assembled⟩ := Strip.of_build built
  obtain ⟨_, _, m, _, _, reads, rfl⟩ := Plan.ofGrammar_reads planned
  have plan_of {i : Nat} {panel : Panel Float32} (there : s.panels[i]? = some panel) :
      ∃ plan, m.plans[i]? = some plan ∧ panel.Builds plan := by
    simpa using assembled.exists_plan there
  have panel_of {i : Nat} {plan : Plan Float32} (planned : m.plans[i]? = some plan) :
      ∃ panel, s.panels[i]? = some panel ∧ panel.Builds plan :=
    assembled.exists_panel (by simpa using planned)
  constructor
  case numbers =>
    intro i panel there
    rcases plan_of there with ⟨plan, planned, builds⟩
    rcases reads.ordered sound started planned with ⟨_, swept, _⟩
    rw [builds.window_eq]
    exact ⟨number_left swept, number_right swept⟩
  case root_le =>
    intro i panel there
    rcases plan_of there with ⟨plan, planned, builds⟩
    rcases panel_of reads.root_eq with ⟨root, first, builds'⟩
    refine ⟨root, first, ?_⟩
    rw [builds.window_eq, builds'.window_eq]
    exact (reads.ordered sound started planned).1
  case start_le_end =>
    intro i panel there
    rcases plan_of there with ⟨plan, planned, builds⟩
    rw [builds.window_eq]
    exact (reads.ordered sound started planned).2.1
  case parent_le =>
    intro i panel there later
    rcases plan_of there with ⟨plan, planned, builds⟩
    rcases reads.exists_attachment planned later with ⟨a, hangs⟩
    rcases (reads.ordered sound started planned).2.2 a hangs with ⟨parent, above, ended⟩
    rcases panel_of above with ⟨base, there', builds'⟩
    refine ⟨a.parent, base, ?_, there', ?_⟩
    · rw [builds.parent_eq, hangs]
      rfl
    · rw [builds.window_eq, builds'.window_eq]
      exact ended
  case root_iff =>
    intro i panel there
    rcases plan_of there with ⟨plan, planned, builds⟩
    have root_iff := reads.attachment_eq_none_iff planned
    rw [builds.parent_eq, builds.pivot_eq]
    simpa using root_iff

end Strip

/-- However an animation has come about, none of its panels moves before its parent rests. So at every
time the ancestors of a panel that is seen rest, and the panels that are seen make up a tree from the root. -/
theorem Animation.Reached.cascade [Trig Float32] {a : Animation Float32} (reached : a.Reached) {id : Nat}
    {s : Strip Float32} (there : a.strip? id = some s) :
    s.Cascades ∧ ∀ time : Float32, time.isNaN = false →
      (∀ (i j : Nat) (panel : Panel Float32), s.panels[i]? = some panel → panel.phaseAt time ≠ .dormant →
        s.Ancestor i j → ∃ base, s.panels[j]? = some base ∧ base.phaseAt time = .settled) ∧
      ∀ i j, i ∈ s.shown time → s.Hangs i j → j ∈ s.shown time := by
  rcases reached.exists_build there with ⟨d, built⟩
  have cascades := Strip.cascades_of_build (Settings.sound_of_check reached.check_settings) built
  refine ⟨cascades, fun time number => ⟨?_, ?_⟩⟩
  · intro i j panel there' seen ancestor
    exact cascades.ancestor_settled number there' seen ancestor
  · intro i j member hangs
    exact cascades.parent_shown number member hangs

theorem Animation.Reached.cascade_corner : ∃ (a : Animation Float32) (s : Strip Float32),
    @Animation.Reached _ _ tableTrig a ∧ a.strip? 0 = some s ∧ s.panels.size = 3 ∧ s.Cascades := by
  let _ : Trig Float32 := tableTrig
  have created : Animation.create Settings.standard = .ok ⟨.standard, #[], []⟩ := by rfl
  have reached := (Animation.Reached.create created).add .corner
  have built : (((Animation.add ⟨Settings.standard, #[], []⟩ .corner).1.strip? 0).any
      (·.panels.size = 3)) = true := by
    decide +kernel
  obtain ⟨s, there, size⟩ := (Option.any_eq_true _ _).mp built
  exact ⟨_, s, reached, there, by simpa using size, (Animation.Reached.cascade reached there).1⟩

end HingedPanels
