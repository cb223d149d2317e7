import HingedPanels.Proofs.Machine.Enclosed
import HingedPanels.Proofs.Plan.Schedule
import HingedPanels.Proofs.Plan.Tree

namespace HingedPanels

variable {S : Type}

namespace Machine

variable [Scalar S] {settings : Settings S} {startTime : S} {front left : List Token} {m : Machine S}

omit [Scalar S] in
theorem AtLevels.exists_level {P : Nat → Cursor S → Prop} {stack : List (Cursor S)} (all : AtLevels P stack) :
    ∀ cursor ∈ stack, ∃ level, P level cursor := by
  induction stack with
  | nil => simp
  | cons top stack ih =>
    intro cursor member
    rcases List.mem_cons.mp member with rfl | member
    · exact ⟨_, all.1⟩
    · exact ih all.2 cursor member

theorem Reads.places (reads : Reads settings startTime front m) {plan : Plan S} (member : plan ∈ m.plans)
    {a : Attachment} (hangs : plan.attachment = some a) :
    a.parent < m.plans.size ∧ ∃ token ∈ front, token.offset = a.offset := by
  obtain ⟨i, there⟩ := Array.mem_iff_getElem?.mp member
  have bound := (Array.getElem?_eq_some_iff.mp there).1
  refine ⟨(reads.parent_lt there hangs).trans bound, ?_⟩
  obtain ⟨before, turn, after, parts, _⟩ := reads.exists_fold there hangs
  exact ⟨.fold a.edge a.face turn a.offset, by simp [parts], rfl⟩

theorem Reads.panel_lt (reads : Reads settings startTime front m) : ∀ cursor ∈ m.cursor :: m.saved, cursor.panel < m.plans.size := by
  intro cursor member
  obtain ⟨_, plan, there, _⟩ := reads.onTime.exists_level cursor member
  exact (Array.getElem?_eq_some_iff.mp there).1

theorem Halts.result_run {token : Token} {stop : ChainEnd} (halts : Halts settings m (token :: left) stop)
    (more : List Token) :
    (run settings (token :: left ++ more) m).result settings = ChainRun.result settings ⟨m.plans, stop⟩ := by
  cases halts with
  | closed offset rest free => simp [run, free, ChainRun.result]
  | tooDeep offset rest deep => simp [run, deep, ChainRun.result]

omit [Scalar S] in
theorem map_raised_of_panel_lt {saved : List (Cursor S)} {start : Nat} (bound : ∀ cursor ∈ saved, cursor.panel < start)
    (count : Nat) : saved.map (Cursor.raised start count) = saved := by
  have same : ∀ cursor ∈ saved, cursor.raised start count = id cursor := by
    intro cursor member
    rw [Cursor.raised, raise, if_pos (bound cursor member), id]
  exact (List.map_congr_left same).trans (List.map_id saved)

variable {inner back : List Token} {opened closed width : Nat} {longer : Array (Plan S)}

theorem result_past_branch (sheltered : Token.Sheltered inner) (level : Token.balance inner = 0)
    (panels : ∀ cursor ∈ m.cursor :: m.saved, cursor.panel < m.plans.toList.length)
    (planned : (run settings (.branchOpen opened :: (inner ++ .branchClose closed :: back.map (Token.movedBy width)))
      m).result settings = .ok longer) :
    ∃ added tail : List (Plan S), (∀ plan ∈ added, plan.StandsAt inner) ∧ (∀ plan ∈ tail, plan.StandsAt back) ∧
      longer = (m.plans.toList ++ added ++
        tail.map (Plan.raised m.plans.toList.length added.length width)).toArray ∧
      (run settings back m).result settings = .ok (m.plans.toList ++ tail).toArray := by
  obtain ⟨cursor, saved, plans⟩ := m
  have branch := run_branch settings sheltered level (back.map (Token.movedBy width)) opened closed cursor saved plans.toList
  rcases branch with ⟨offset, deep⟩ | ⟨added, stands, same⟩
  · simp only [ChainRun.result, deep, reduceCtorEq] at planned
  · obtain ⟨tail, stop, short, stands', long⟩ := run_raised settings plans.toList added width back cursor saved []
    have same_stack := map_raised_of_panel_lt panels added.length
    rw [List.map_cons, List.cons.injEq] at same_stack
    simp only [same_stack, List.map_nil, List.append_nil, List.nil_append] at short long
    rw [same, long] at planned
    obtain ⟨whole, ended⟩ := ChainRun.result_eq_ok_iff.mp planned
    refine ⟨added, tail, stands, stands', whole.symm, ?_⟩
    rw [short]
    apply ChainRun.result_eq_ok_iff.mpr
    exact ⟨rfl, fun offset deep => ended (offset + width) (congrArg (ChainEnd.movedBy width) deep)⟩

/-- With a branch and without it, the machine plans the same panels around the branch. -/
theorem result_around (sheltered : Token.Sheltered inner) (level : Token.balance inner = 0)
    (planned : (run settings (front ++ .branchOpen opened :: (inner ++ .branchClose closed :: back.map (Token.movedBy width)))
      (.start startTime)).result settings = .ok longer) :
    ∃ base added tail : List (Plan S),
      (∀ plan ∈ base, ∀ a, plan.attachment = some a →
        a.parent < base.length ∧ ∃ token ∈ front, token.offset = a.offset) ∧
      (∀ plan ∈ added, plan.StandsAt inner) ∧ (∀ plan ∈ tail, plan.StandsAt back) ∧
      longer = (base ++ added ++ tail.map (Plan.raised base.length added.length width)).toArray ∧
      (run settings (front ++ back) (.start startTime)).result settings = .ok (base ++ tail).toArray := by
  obtain ⟨part, left, m, parts, reads, halts, _⟩ := run_reads (.start : Reads settings startTime _ _) front
  rw [List.nil_append] at reads
  have places : ∀ plan ∈ m.plans.toList, ∀ a, plan.attachment = some a →
      a.parent < m.plans.toList.length ∧ ∃ token ∈ front, token.offset = a.offset := by
    intro plan member a hangs
    obtain ⟨bound, token, present, place⟩ := reads.places (Array.mem_toList_iff.mp member) hangs
    exact ⟨bound, token, parts ▸ List.mem_append_left left present, place⟩
  cases left with
  | nil =>
    have onward (more : List Token) : run settings (front ++ more) (.start startTime) = run settings more m := by
      rw [parts, List.append_nil, run_of_reads reads]
    rw [onward] at planned ⊢
    obtain ⟨added, tail, rest⟩ := result_past_branch sheltered level reads.panel_lt planned
    exact ⟨m.plans.toList, added, tail, places, rest⟩
  | cons token left =>
    -- The strip ends before the branch, so that the branch is never read.
    generalize (run settings front (.start startTime)).stop = stop at halts
    have ends (more : List Token) : (run settings (front ++ more) (.start startTime)).result settings =
        ChainRun.result settings ⟨m.plans, stop⟩ := by
      rw [parts, List.append_assoc, run_of_reads reads]
      exact halts.result_run more
    rw [ends] at planned
    have whole : m.plans = longer := (ChainRun.result_eq_ok_iff.mp planned).1
    refine ⟨m.plans.toList, [], [], places, by simp, by simp, by simp [whole], ?_⟩
    rw [ends, planned, ← whole]
    simp

end Machine

end HingedPanels
