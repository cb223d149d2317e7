import HingedPanels.Proofs.Exact.Space
import HingedPanels.Proofs.Machine.Simulation
import HingedPanels.Proofs.Token.Reversed

/-!
Plans read in a mirror, in exact arithmetic. Turning every face over changes the sign of every angle and
nothing else: a sweep takes as long one way as the other, so all panels keep their times.
-/

namespace HingedPanels

noncomputable def Sense.sign : Sense → ℝ
  | kept => 1
  | reversed => -1

namespace Sense

variable (s : Sense)

theorem sign_mul_sign : s.sign * s.sign = 1 := by
  cases s <;> norm_num [sign]

theorem abs_sign : |s.sign| = 1 := by
  cases s <;> norm_num [sign]

theorem cos_sign_mul (angle : ℝ) : Real.cos (s.sign * angle) = Real.cos angle := by
  cases s with
  | kept => rw [sign, one_mul]
  | reversed => rw [sign, neg_one_mul, Real.cos_neg]

theorem sin_sign_mul (angle : ℝ) : Real.sin (s.sign * angle) = s.sign * Real.sin angle := by
  cases s with
  | kept => rw [sign, one_mul, one_mul]
  | reversed => rw [sign, neg_one_mul, neg_one_mul, Real.sin_neg]

end Sense

variable [Quantities]

theorem Face.foldedAngle_face (s : Sense) (f : Face) (target : ℝ) :
    (s.face f).foldedAngle target = s.sign * f.foldedAngle target := by
  cases s <;> cases f <;> simp [Sense.face, Sense.sign, foldedAngle]

theorem Face.restTurn_face (s : Sense) (f : Face) (target : ℝ) :
    (s.face f).restTurn target = s.sign * f.restTurn target := by
  rw [restTurn, restTurn, foldedAngle_face, mul_neg]

namespace Window

noncomputable def sensed (s : Sense) (w : Window ℝ) : Window ℝ :=
  ⟨w.startTime, w.endTime, s.sign * w.startAngle, s.sign * w.endAngle⟩

theorem sweep_sign_mul (s : Sense) (startTime startAngle speed : ℝ) :
    sweep startTime (s.sign * startAngle) speed = (sweep startTime startAngle speed).sensed s := by
  have time : sweepTime (s.sign * startAngle) 0 speed = sweepTime startAngle 0 speed := by
    change |s.sign * startAngle - 0| / speed = |startAngle - 0| / speed
    rw [sub_zero, sub_zero, abs_mul, s.abs_sign, one_mul]
  rw [sweep, sweep, sensed, time, mul_zero]

theorem still_sensed (s : Sense) (time : ℝ) : (still time).sensed s = still time := by
  rw [still, sensed, mul_zero]

theorem angleAt_sensed (s : Sense) (w : Window ℝ) (bias : ℝ) :
    (w.sensed s).angleAt bias = s.sign * w.angleAt bias := by
  simp only [angleAt, sensed]
  ring

end Window

namespace Plan

noncomputable def sensed (s : Sense) (plan : Plan ℝ) : Plan ℝ :=
  ⟨plan.attachment.map fun a => ⟨a.parent, a.edge, s.face a.face, a.offset⟩, plan.target,
    plan.window.sensed s, plan.depth⟩

theorem root_sensed (s : Sense) (startTime : ℝ) : (root startTime).sensed s = root startTime := by
  rw [root, sensed, Window.still_sensed, Option.map_none]

theorem fold_face (s : Sense) (settings : Settings ℝ) (cursor : Cursor ℝ) (depth : Nat) (edge : Edge) (f : Face)
    (turn : Turn) (offset : Nat) : fold settings cursor depth edge (s.face f) turn offset =
      (fold settings cursor depth edge f turn offset).sensed s := by
  rw [fold, fold, sensed, Face.foldedAngle_face, Window.sweep_sign_mul, Option.map_some]

end Plan

namespace Machine

/-- The machine with every plan of the other sense. The cursors hold times and no angles. -/
noncomputable def sensed (s : Sense) (m : Machine ℝ) : Machine ℝ :=
  ⟨m.cursor, m.saved, m.plans.map (Plan.sensed s)⟩

theorem sensed_start (s : Sense) (startTime : ℝ) : (start startTime).sensed s = start startTime := by
  rw [start, sensed, List.map_toArray, List.map_singleton, Plan.root_sensed]

omit [Quantities] in
theorem sensed_add (s : Sense) (m : Machine ℝ) (plan : Plan ℝ) :
    (m.add plan).sensed s = (m.sensed s).add (plan.sensed s) := by
  rw [add, add, sensed, sensed, Array.map_push, Array.size_map]
  rfl

theorem result_run_sensed (s : Sense) (settings : Settings ℝ) (tokens : List Token) (m : Machine ℝ) :
    (run settings (tokens.map s.token) (m.sensed s)).result settings =
      ((run settings tokens m).result settings).map (·.map (Plan.sensed s)) := by
  induction tokens generalizing m with
  | nil => rfl
  | cons token rest ih =>
    cases token with
    | fold edge f turn offset =>
      have step := ih (m.add (Plan.fold settings m.cursor m.saved.length edge f turn offset))
      rw [sensed_add, ← Plan.fold_face] at step
      exact step
    | branchOpen offset =>
      have same : s.token (.branchOpen offset) = .branchOpen offset := rfl
      have level : (m.sensed s).saved = m.saved := rfl
      rw [List.map_cons, same, run, run, level]
      by_cases deep : settings.maxBranchDepth < m.saved.length + 1
      · rw [if_pos deep, if_pos deep]
        rfl
      · rw [if_neg deep, if_neg deep]
        exact ih ⟨m.cursor.branch settings, m.cursor :: m.saved, m.plans⟩
    | branchClose offset =>
      rcases m with ⟨cursor, saved, plans⟩
      cases saved with
      | nil => rfl
      | cons outer saved => exact ih ⟨outer, saved, plans⟩

end Machine

theorem Plan.ofGrammar_grammar (s : Sense) (settings : Settings ℝ) (g : String) (startTime : ℝ) :
    (ofGrammar settings (s.grammar g) startTime).toOption =
      (ofGrammar settings g startTime).toOption.map (·.map (Plan.sensed s)) := by
  have read := s.ofGrammar_grammar g
  cases scanned : Token.ofGrammar g with
  | error fault =>
    cases scanned' : Token.ofGrammar (s.grammar g) with
    | error fault' =>
      rw [ofGrammar, ofGrammar, scanned, scanned']
      rfl
    | ok tokens =>
      rw [scanned, scanned'] at read
      cases read
  | ok tokens =>
    have same := Machine.result_run_sensed s settings tokens (.start startTime)
    rw [Machine.sensed_start] at same
    rw [ofGrammar_eq_run scanned, ofGrammar_eq_run (s.ofGrammar_of_ok scanned), same]
    cases (Machine.run settings tokens (.start startTime)).result settings <;> rfl

end HingedPanels
