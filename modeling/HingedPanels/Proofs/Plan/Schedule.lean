import HingedPanels.Proofs.Machine.Simulation

namespace HingedPanels

variable {S : Type} [Scalar S]

/-- A panel's window and depth, given those of the panel that it hangs on. -/
structure Plan.Follows (plan : Plan S) (settings : Settings S) (parent : Plan S) (face : Face) : Prop where
  depth_le : parent.depth ≤ plan.depth
  startTime_eq : plan.window.startTime =
    (fun time => time + settings.branchDelay)^[plan.depth - parent.depth] parent.window.endTime
  endTime_eq : plan.window.endTime =
    plan.window.startTime + Scalar.abs (plan.window.startAngle - 0) / settings.angularSpeed
  startAngle_eq : plan.window.startAngle =
    match face with
    | .front => -plan.target
    | .back => plan.target
  endAngle_eq : plan.window.endAngle = 0

namespace Machine

/-- A cursor of a level has run as many delays past its panel's end as the level is above the panel. -/
def OnTime (settings : Settings S) (plans : Array (Plan S)) (level : Nat) (cursor : Cursor S) : Prop :=
  ∃ plan, plans[cursor.panel]? = some plan ∧ plan.depth ≤ level ∧
    cursor.time = (fun time => time + settings.branchDelay)^[level - plan.depth] plan.window.endTime

theorem OnTime.push {settings : Settings S} {plans : Array (Plan S)} {level : Nat} {cursor : Cursor S}
    (onTime : OnTime settings plans level cursor) (last : Plan S) :
    OnTime settings (plans.push last) level cursor := by
  rcases onTime with ⟨plan, there, depth, time⟩
  exact ⟨plan, getElem?_push_of_some there last, depth, time⟩

theorem OnTime.branch {settings : Settings S} {plans : Array (Plan S)} {level : Nat} {cursor : Cursor S}
    (onTime : OnTime settings plans level cursor) :
    OnTime settings plans (level + 1) (cursor.branch settings) := by
  rcases onTime with ⟨plan, there, depth, time⟩
  refine ⟨plan, there, Nat.le_succ_of_le depth, ?_⟩
  rw [Nat.succ_sub depth, Function.iterate_succ_apply', ← time]
  rfl

variable {settings : Settings S} {startTime : S} {front : List Token} {m : Machine S}

theorem Reads.onTime (reads : Reads settings startTime front m) :
    AtLevels (OnTime settings m.plans) (m.cursor :: m.saved) := by
  induction reads with
  | start => exact ⟨⟨.root startTime, rfl, Nat.le_refl _, rfl⟩, trivial⟩
  | @fold front m reads edge face turn offset ih =>
    refine ⟨⟨Plan.fold settings m.cursor m.saved.length edge face turn offset, ?_, Nat.le_refl _, ?_⟩, ?_⟩
    · exact Array.getElem?_push_size
    · simp [add, Plan.fold]
    · exact ih.2.mono fun _ _ _ onTime => onTime.push _
  | branchOpen _ _ _ ih => exact ⟨ih.1.branch, ih⟩
  | branchClose _ _ ih => exact ih.2

theorem OnTime.follows {plans : Array (Plan S)} {level : Nat} {cursor : Cursor S}
    (onTime : OnTime settings plans level cursor) (edge : Edge) (face : Face) (turn : Turn) (offset : Nat) :
    ∃ parent, plans[cursor.panel]? = some parent ∧
      (Plan.fold settings cursor level edge face turn offset).Follows settings parent face := by
  rcases onTime with ⟨parent, there, depth, time⟩
  refine ⟨parent, there, depth, time, rfl, ?_, rfl⟩
  cases face <;> rfl

theorem Reads.follows (reads : Reads settings startTime front m) {i : Nat} {plan : Plan S} {a : Attachment}
    (there : m.plans[i]? = some plan) (hangs : plan.attachment = some a) :
    ∃ parent, m.plans[a.parent]? = some parent ∧ plan.Follows settings parent a.face := by
  induction reads generalizing i plan with
  | start =>
    obtain ⟨_, rfl⟩ := eq_root_of_start there
    cases hangs
  | fold reads edge face turn offset ih =>
    rw [add, Array.getElem?_push] at there
    split at there
    case isTrue last =>
      cases there
      cases hangs
      rcases reads.onTime.1.follows edge face turn offset with ⟨parent, planned, follows⟩
      exact ⟨parent, getElem?_push_of_some planned _, follows⟩
    case isFalse =>
      rcases ih there hangs with ⟨parent, planned, follows⟩
      exact ⟨parent, getElem?_push_of_some planned _, follows⟩
  | branchOpen _ _ _ ih => exact ih there hangs
  | branchClose _ _ ih => exact ih there hangs

end Machine

variable {settings : Settings S} {grammar : String} {startTime : S} {plans : Array (Plan S)}

/-- The whole schedule of a grammar follows from its root. The last part is what the second one comes to
for panels side by side: their parent and their depth decide when they start. -/
theorem Plan.ofGrammar_schedule (planned : Plan.ofGrammar settings grammar startTime = .ok plans) :
    (∃ root, plans[0]? = some root ∧ root.attachment = none ∧
      root.window.startTime = startTime ∧ root.window.endTime = startTime) ∧
    (∀ i plan, plans[i]? = some plan → i ≠ 0 → ∃ a parent, plan.attachment = some a ∧
      plans[a.parent]? = some parent ∧ plan.Follows settings parent a.face) ∧
    (∀ (i j : Nat) (plan other : Plan S) (a b : Attachment), plans[i]? = some plan → plans[j]? = some other →
      plan.attachment = some a → other.attachment = some b → a.parent = b.parent →
      plan.depth = other.depth → plan.window.startTime = other.window.startTime) := by
  obtain ⟨_, _, m, _, _, reads, rfl⟩ := ofGrammar_reads planned
  refine ⟨⟨.root startTime, reads.root_eq, rfl, rfl, rfl⟩, ?_, ?_⟩
  · intro i plan there later
    rcases reads.exists_attachment there later with ⟨a, hangs⟩
    rcases reads.follows there hangs with ⟨parent, above, follows⟩
    exact ⟨a, parent, hangs, above, follows⟩
  · intro i j plan other a b there beside hangs hangs' same depth
    rcases reads.follows there hangs with ⟨parent, above, follows⟩
    rcases reads.follows beside hangs' with ⟨parent', above', follows'⟩
    rw [← same, above] at above'
    cases above'
    rw [follows.startTime_eq, follows'.startTime_eq, depth]

theorem Token.ofGrammar_nested : Token.ofGrammar "A0{{B1}c2}D0" =
    .ok [.fold .a .front .quarter 0, .branchOpen 2, .branchOpen 3, .fold .b .front .half 4, .branchClose 6,
      .fold .c .back .threeQuarter 7, .branchClose 9, .fold .d .front .quarter 10] := by
  cbv

theorem Plan.ofGrammar_schedule_nested :
    ∃ plans plan a parent, Plan.ofGrammar .standard "A0{{B1}c2}D0" (0 : Float32) = .ok plans ∧
      plans[2]? = some plan ∧ plan.attachment = some a ∧ plans[a.parent]? = some parent ∧
      parent.depth + 2 = plan.depth ∧ plan.Follows .standard parent a.face := by
  have planned := (Plan.ofGrammar_eq_run Token.ofGrammar_nested .standard (0 : Float32)).trans rfl
  obtain ⟨a, parent, hangs, above, follows⟩ := (Plan.ofGrammar_schedule planned).2.1 2 _ rfl (by decide)
  refine ⟨_, _, a, parent, planned, rfl, hangs, above, ?_, follows⟩
  cases hangs
  cases above
  rfl

end HingedPanels
