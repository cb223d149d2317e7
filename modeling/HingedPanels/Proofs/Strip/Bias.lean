import HingedPanels.Proofs.Animation.Settled
import HingedPanels.Proofs.Single.Share
import HingedPanels.Proofs.Strip.Finite

namespace HingedPanels

open Single

namespace Window

variable {w : Window Float32} {time : Float32}

structure Running (w : Window Float32) (time : Float32) : Prop where
  bot_lt_start : ⊥ < valueOf w.startTime
  started : w.startTime ≤ time
  before_end : time < w.endTime

namespace Running

variable (running : w.Running time)

include running

theorem finite_time : time.isFinite = true := by
  have ended := (lt_iff_valueOf.mp running.before_end).2.2
  exact isFinite_of_between (number_right running.started) (bot_lt_of_le running.bot_lt_start running.started)
    (ended.trans_le le_top)

theorem finite_start : w.startTime.isFinite = true := by
  have started := (le_iff_valueOf.mp running.started).2.2
  have ended := (lt_iff_valueOf.mp running.before_end).2.2
  exact isFinite_of_between (number_left running.started) running.bot_lt_start
    (started.trans_lt (ended.trans_le le_top))

theorem length_number : (w.endTime - w.startTime).isNaN = false :=
  number_sub (number_right (le_of_lt_single running.before_end)) running.finite_start

theorem elapsed_le : time - w.startTime ≤ w.endTime - w.startTime :=
  sub_le_sub_single running.finite_time running.finite_start (le_of_lt_single running.before_end)

theorem elapsed_nonneg : 0 ≤ time - w.startTime := by
  obtain ⟨number, same⟩ := valueOf_sub running.finite_time running.finite_start
  have started := (le_iff_realOf running.finite_start running.finite_time).mp running.started
  rw [le_iff_valueOf, valueOf_zero, same, ← nearest_zero]
  exact ⟨rfl, number, nearest_mono (sub_nonneg.mpr started)⟩

theorem bot_lt_elapsed : ⊥ < valueOf (time - w.startTime) :=
  EReal.bot_lt_zero.trans_le (le_iff_valueOf.mp running.elapsed_nonneg).2.2

theorem finite_elapsed_of_lt (short : time - w.startTime < w.endTime - w.startTime) :
    (time - w.startTime).isFinite = true :=
  isFinite_of_between (number_left running.elapsed_le) running.bot_lt_elapsed
    ((lt_iff_valueOf.mp short).2.2.trans_le le_top)

theorem length_pos : 0 < w.endTime - w.startTime := by
  apply sub_pos_single running.finite_start
  rw [lt_iff_valueOf]
  exact ⟨number_left running.started, number_right (le_of_lt_single running.before_end),
    (le_iff_valueOf.mp running.started).2.2.trans_lt (lt_iff_valueOf.mp running.before_end).2.2⟩

theorem bias_eq : w.bias time = Scalar.clampUnit ((time - w.startTime) / (w.endTime - w.startTime)) := by
  have long := (not_le_iff_lt running.length_number rfl).mpr running.length_pos
  unfold bias
  dsimp only
  rw [if_neg long]

theorem realOf_length_pos (bounded : (w.endTime - w.startTime).isFinite = true) :
    0 < realOf (w.endTime - w.startTime) :=
  (pos_iff_realOf bounded).mp running.length_pos

theorem finite_elapsed (bounded : (w.endTime - w.startTime).isFinite = true) :
    (time - w.startTime).isFinite = true := by
  have short := (le_iff_valueOf.mp running.elapsed_le).2.2
  rw [valueOf_eq_realOf bounded] at short
  exact isFinite_of_between (number_left running.elapsed_le) running.bot_lt_elapsed (short.trans_lt (EReal.coe_lt_top _))

theorem realOf_elapsed (bounded : (w.endTime - w.startTime).isFinite = true) :
    0 ≤ realOf (time - w.startTime) ∧ realOf (time - w.startTime) ≤ realOf (w.endTime - w.startTime) := by
  have finite := running.finite_elapsed bounded
  exact ⟨(nonneg_iff_realOf finite).mp running.elapsed_nonneg, (le_iff_realOf finite bounded).mp running.elapsed_le⟩

theorem bias_spec (bounded : (w.endTime - w.startTime).isFinite = true) :
    (w.bias time).isFinite = true ∧
      realOf (w.bias time) = rounded (realOf (time - w.startTime) / realOf (w.endTime - w.startTime)) := by
  obtain ⟨nonneg, short⟩ := running.realOf_elapsed bounded
  obtain ⟨finite, same, clamped⟩ :=
    share_spec (running.finite_elapsed bounded) bounded nonneg short (running.realOf_length_pos bounded)
  rw [running.bias_eq, clamped]
  exact ⟨finite, same⟩

/-- The share is zero at the start of a window, whichever of the two zeros the start may be. -/
theorem isZero_bias (begun : time ≤ w.startTime) (bounded : (w.endTime - w.startTime).isFinite = true) :
    IsZero (w.bias time) := by
  have finite := running.finite_time
  have finite' := running.finite_start
  have same := le_antisymm ((le_iff_realOf finite finite').mp begun) ((le_iff_realOf finite' finite).mp running.started)
  have elapsed := isZero_sub finite finite' same
  have share := isZero_div elapsed bounded (running.realOf_length_pos bounded).ne'
  rw [running.bias_eq, clampUnit_of_isZero share]
  exact share

theorem bias_of_lt (short : time - w.startTime < w.endTime - w.startTime) : 0 ≤ w.bias time ∧ w.bias time < 1 := by
  by_cases bounded : (w.endTime - w.startTime).isFinite = true
  · obtain ⟨finite, same⟩ := running.bias_spec bounded
    have nonneg := (running.realOf_elapsed bounded).1
    have positive := running.realOf_length_pos bounded
    have below := (lt_iff_realOf (running.finite_elapsed bounded) bounded).mp short
    rw [nonneg_iff_realOf finite, lt_one_iff_realOf finite, same]
    exact ⟨rounded_nonneg (div_nonneg nonneg positive.le), rounded_div_lt_one nonneg below⟩
  · have infinite := Bool.eq_false_iff.mpr bounded
    have zero := isZero_div_infinite (running.finite_elapsed_of_lt short) running.length_number infinite
    rw [running.bias_eq, clampUnit_of_isZero zero]
    rcases zero with same | same <;> rw [same] <;> decide +kernel

theorem bias_of_le (elapsed : (time - w.startTime).isFinite = true)
    (long : w.endTime - w.startTime ≤ time - w.startTime) : w.bias time = 1 := by
  have same := le_antisymm (le_iff_valueOf.mp running.elapsed_le).2.2 (le_iff_valueOf.mp long).2.2
  have bounded : (w.endTime - w.startTime).isFinite = true := by
    rw [valueOf_eq_realOf elapsed] at same
    have positive := (lt_iff_valueOf.mp running.length_pos).2.2
    exact isFinite_of_between running.length_number (EReal.bot_lt_zero.trans positive) (same ▸ EReal.coe_lt_top _)
  rw [valueOf_eq_realOf elapsed, valueOf_eq_realOf bounded, EReal.coe_eq_coe_iff] at same
  rw [running.bias_eq, div_eq_one elapsed bounded same (running.realOf_length_pos bounded).ne']
  rfl

theorem bias_of_infinite (endless : (time - w.startTime).isFinite = false) : (w.bias time).isNaN = true := by
  have top := valueOf_eq_top_of_infinite (number_left running.elapsed_le) running.bot_lt_elapsed endless
  have top' : valueOf (w.endTime - w.startTime) = ⊤ := top_le_iff.mp (top ▸ (le_iff_valueOf.mp running.elapsed_le).2.2)
  have missing := isNaN_div_infinite top top'
  rw [running.bias_eq, clampUnit_of_isNaN missing]
  exact missing

theorem bias_cases :
    (time - w.startTime < w.endTime - w.startTime ∧ (time - w.startTime).isFinite = true ∧
      0 ≤ w.bias time ∧ w.bias time < 1) ∨
    (¬ time - w.startTime < w.endTime - w.startTime ∧ (time - w.startTime).isFinite = true ∧ w.bias time = 1) ∨
    (¬ time - w.startTime < w.endTime - w.startTime ∧ (time - w.startTime).isFinite = false ∧
      (w.bias time).isNaN = true) := by
  by_cases short : time - w.startTime < w.endTime - w.startTime
  · exact .inl ⟨short, running.finite_elapsed_of_lt short, running.bias_of_lt short⟩
  · have long := (not_lt_iff_le (number_left running.elapsed_le) running.length_number).mp short
    cases elapsed : (time - w.startTime).isFinite with
    | true => exact .inr (.inl ⟨short, rfl, running.bias_of_le elapsed long⟩)
    | false => exact .inr (.inr ⟨short, rfl, running.bias_of_infinite elapsed⟩)

end Running

end Window

theorem Panel.running_of_phaseAt {panel : Panel Float32} {time bias : Float32}
    (above : ⊥ < valueOf panel.window.startTime) (ordered : panel.window.startTime ≤ panel.window.endTime)
    (number : time.isNaN = false) (moves : panel.phaseAt time = .unfolding bias) : panel.window.Running time := by
  unfold phaseAt at moves
  split_ifs at moves with free early late
  exact ⟨above, (not_lt_iff_le number (number_left ordered)).mp early, (not_le_iff_lt (number_right ordered) number).mp late⟩

namespace Animation.Reached

variable [Trig Float32] {a : Animation Float32} (reached : a.Reached) {id : Nat} {s : Strip Float32}
  (there : a.strip? id = some s) {i : Nat} {panel : Panel Float32} (place : s.panels[i]? = some panel)

include reached there place

theorem bot_lt_startTime : ⊥ < valueOf panel.window.startTime := by
  obtain ⟨d, built⟩ := reached.exists_build there
  obtain ⟨_, started, _⟩ := Strip.of_build built
  obtain ⟨root, first, window⟩ := Strip.root_of_build built
  obtain ⟨root', first', later⟩ := (reached.cascades there).root_le place
  rw [first] at first'
  cases first'
  rw [window] at later
  exact bot_lt_of_le (bot_lt_of_finite started) later

/-- The bias of a panel in motion. It is a share below one exactly as long as the time that has passed and the
length of the window, as they are rounded, differ; it is one where they have become the same number, and no
number where the time that has passed is infinite. -/
theorem bias_range {time bias : Float32} (number : time.isNaN = false) (moves : panel.phaseAt time = .unfolding bias) :
    (0 ≤ bias ∧ bias < 1 ↔ time - panel.window.startTime < panel.window.endTime - panel.window.startTime) ∧
    (bias = 1 ↔ (time - panel.window.startTime).isFinite = true ∧
      panel.window.endTime - panel.window.startTime ≤ time - panel.window.startTime) ∧
    (bias.isNaN = true ↔ (time - panel.window.startTime).isFinite = false) := by
  have running := Panel.running_of_phaseAt (reached.bot_lt_startTime there place)
    ((reached.cascades there).start_le_end place) number moves
  have same := Panel.eq_bias_of_phaseAt moves
  rw [← not_lt_iff_le (number_left running.elapsed_le) running.length_number, same]
  rcases running.bias_cases with ⟨short, finite, nonneg, below⟩ | ⟨long, finite, one⟩ | ⟨long, infinite, missing⟩
  · have apart : panel.window.bias time ≠ 1 := by
      intro one
      rw [one] at below
      exact absurd below (by decide +kernel)
    have number' := Bool.eq_false_iff.mp (number_right nonneg)
    have finite' : (time - panel.window.startTime).isFinite ≠ false := by simp [finite]
    exact ⟨iff_of_true ⟨nonneg, below⟩ short, iff_of_false apart fun both => both.2 short, iff_of_false number' finite'⟩
  · have full : ¬ (0 ≤ (1 : Float32) ∧ (1 : Float32) < 1) ∧ (1 : Float32).isNaN ≠ true := by decide +kernel
    have finite' : (time - panel.window.startTime).isFinite ≠ false := by simp [finite]
    rw [one]
    exact ⟨iff_of_false full.1 long, iff_of_true rfl ⟨finite, long⟩, iff_of_false full.2 finite'⟩
  · have unordered : ¬ 0 ≤ panel.window.bias time := by
      intro nonneg
      rw [number_right nonneg] at missing
      cases missing
    have apart : panel.window.bias time ≠ 1 := by
      intro one
      rw [one] at missing
      cases missing
    have finite' : (time - panel.window.startTime).isFinite ≠ true := by simp [infinite]
    exact ⟨iff_of_false (fun both => unordered both.1) long, iff_of_false apart fun both => finite' both.1,
      iff_of_true missing infinite⟩

end Animation.Reached

theorem Animation.Reached.bias_range_corner :
    ∃ (a : Animation Float32) (s : Strip Float32) (panel : Panel Float32) (bias : Float32),
      @Animation.Reached _ _ tableTrig a ∧ a.strip? 0 = some s ∧ s.panels[1]? = some panel ∧
        panel.phaseAt (Float32.ofBits 0x3dcccccd) = .unfolding bias ∧ 0 ≤ bias ∧ bias < 1 := by
  let _ : Trig Float32 := tableTrig
  let time := Float32.ofBits 0x3dcccccd
  have reached := Animation.Reached.standard.add .corner
  have built : (((Animation.add ⟨Settings.standard, #[], []⟩ .corner).1.strip? 0).any fun s =>
      s.panels[1]?.any fun panel => panel.phaseAt time = .unfolding (panel.window.bias time) ∧
        time - panel.window.startTime < panel.window.endTime - panel.window.startTime) = true := by
    decide +kernel
  obtain ⟨s, there, built⟩ := (Option.any_eq_true _ _).mp built
  obtain ⟨panel, place, built⟩ := (Option.any_eq_true _ _).mp built
  obtain ⟨moves, short⟩ := of_decide_eq_true built
  obtain ⟨nonneg, below⟩ := (Animation.Reached.bias_range reached there place (by decide +kernel) moves).1.mpr short
  exact ⟨_, s, panel, _, reached, there, place, moves, nonneg, below⟩

def Settings.slow : Settings Float32 := { Settings.standard with angularSpeed := Float32.ofBits 0x3f800000 }

def Description.roll : Description Float32 := { Description.standard with grammar := "A1A2" }

/-- At one radian per second, the last moment at which the second of two panels moves: the time that has passed
and the length of its window have become the same number, and it is still unfolding with a bias of one. -/
theorem Animation.Reached.bias_range_roll :
    ∃ (a : Animation Float32) (s : Strip Float32) (panel : Panel Float32),
      @Animation.Reached _ _ tableTrig a ∧ a.strip? 0 = some s ∧ s.panels[2]? = some panel ∧
        (Float32.ofBits 0x40fb53d1).isNaN = false ∧ panel.phaseAt (Float32.ofBits 0x40fb53d1) = .unfolding 1 ∧
        ¬ (1 : Float32) < 1 := by
  let _ : Trig Float32 := tableTrig
  have created : Animation.create Settings.slow = .ok ⟨.slow, #[], []⟩ := by rfl
  have reached := (Animation.Reached.create created).add .roll
  have built : (((Animation.add ⟨Settings.slow, #[], []⟩ .roll).1.strip? 0).any fun s =>
      s.panels[2]?.any fun panel => panel.phaseAt (Float32.ofBits 0x40fb53d1) = .unfolding 1) = true := by
    decide +kernel
  obtain ⟨s, there, built⟩ := (Option.any_eq_true _ _).mp built
  obtain ⟨panel, place, full⟩ := (Option.any_eq_true _ _).mp built
  exact ⟨_, s, panel, reached, there, place, by decide +kernel, of_decide_eq_true full, by decide +kernel⟩

end HingedPanels
