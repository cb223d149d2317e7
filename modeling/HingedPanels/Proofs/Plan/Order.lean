import HingedPanels.Proofs.Plan.Schedule
import HingedPanels.Proofs.Plan.Tree
import HingedPanels.Proofs.Single.Number

/-!
The order of the windows of a plan in single precision. Rounding may swallow a delay or a sweep, and long
ones may sum up to infinity, but no panel starts before its parent has come to rest.
-/

namespace HingedPanels

open Single

structure Settings.Sound (settings : Settings Float32) : Prop where
  finite_speed : settings.angularSpeed.isFinite = true
  positive_speed : 0 < settings.angularSpeed
  nonneg_delay : 0 ≤ settings.branchDelay

theorem Settings.sound_of_check {settings : Settings Float32} (accepted : settings.check = .ok ()) :
    settings.Sound := by
  unfold check at accepted
  split at accepted
  · cases accepted
  split at accepted
  · cases accepted
  rename_i speed delay
  rw [not_or, Bool.not_eq_false] at speed delay
  exact ⟨speed.1, (not_le_iff_lt (number_of_finite speed.1) rfl).mp speed.2,
    (not_lt_iff_le (number_of_finite delay.1) rfl).mp delay.2⟩

theorem Face.foldedAngle_number (face : Face) (turn : Turn) :
    (face.foldedAngle (turn.radians : Float32) - 0).isNaN = false := by
  cases face <;> cases turn <;> rfl

theorem le_delays {delay time : Float32} (nonneg : 0 ≤ delay) (number : time.isNaN = false)
    (above : ⊥ < valueOf time) (count : Nat) : time ≤ (fun time => time + delay)^[count] time := by
  induction count with
  | zero => exact le_refl_single number
  | succ count ih =>
    rw [Function.iterate_succ_apply']
    exact le_trans_single ih (le_add_of_nonneg (number_right ih) (bot_lt_of_le above ih) nonneg)

theorem Plan.Follows.ordered {plan parent : Plan Float32} {settings : Settings Float32} {face : Face} {turn : Turn}
    (follows : plan.Follows settings parent face) (sound : settings.Sound) (target : plan.target = turn.radians)
    (number : parent.window.endTime.isNaN = false) (above : ⊥ < valueOf parent.window.endTime) :
    parent.window.endTime ≤ plan.window.startTime ∧ plan.window.startTime ≤ plan.window.endTime := by
  have later : parent.window.endTime ≤ plan.window.startTime := by
    rw [follows.startTime_eq]
    exact le_delays sound.nonneg_delay number above _
  have angle : (plan.window.startAngle - 0).isNaN = false := by
    have folded : plan.window.startAngle = face.foldedAngle turn.radians := by
      rw [follows.startAngle_eq, target]
      cases face <;> rfl
    rw [folded]
    exact face.foldedAngle_number turn
  have sweep : 0 ≤ (plan.window.startAngle - 0).abs / settings.angularSpeed :=
    nonneg_div (nonneg_abs angle) sound.finite_speed sound.positive_speed
  refine ⟨later, ?_⟩
  rw [follows.endTime_eq]
  exact le_add_of_nonneg (number_right later) (bot_lt_of_le above later) sweep

theorem bot_lt_of_finite {x : Float32} (finite : x.isFinite = true) : ⊥ < valueOf x := by
  rw [valueOf_eq_realOf finite]
  exact EReal.bot_lt_coe _

theorem Machine.Reads.ordered {settings : Settings Float32} {startTime : Float32} {front : List Token}
    {m : Machine Float32} (reads : Reads settings startTime front m) (sound : settings.Sound)
    (finite : startTime.isFinite = true) {i : Nat} {plan : Plan Float32} (there : m.plans[i]? = some plan) :
    startTime ≤ plan.window.startTime ∧ plan.window.startTime ≤ plan.window.endTime ∧
      ∀ a, plan.attachment = some a →
        ∃ parent, m.plans[a.parent]? = some parent ∧ parent.window.endTime ≤ plan.window.startTime := by
  -- Parents have smaller numbers, so the induction goes down the tree whatever branches lie between.
  induction i using Nat.strong_induction_on generalizing plan with
  | _ i ih =>
    cases hangs : plan.attachment with
    | none =>
      have first := (reads.attachment_eq_none_iff there).mp hangs
      rw [first, reads.root_eq] at there
      cases there
      have still : startTime ≤ startTime := le_refl_single (number_of_finite finite)
      exact ⟨still, still, fun _ free => nomatch free⟩
    | some a =>
      rcases reads.follows there hangs with ⟨parent, above, follows⟩
      rcases reads.exists_fold there hangs with ⟨_, turn, _, _, _, records⟩
      rcases ih a.parent (reads.parent_lt there hangs) above with ⟨started, swept, _⟩
      have ended : startTime ≤ parent.window.endTime := le_trans_single started swept
      obtain ⟨later, sweep⟩ := follows.ordered sound records.target_eq (number_right ended)
        (bot_lt_of_le (bot_lt_of_finite finite) ended)
      refine ⟨le_trans_single ended later, sweep, ?_⟩
      intro b same
      cases same
      exact ⟨parent, above, later⟩

end HingedPanels
