import HingedPanels.Notice
import HingedPanels.Proofs.Plan.Tree

namespace HingedPanels

namespace Token

/-- The token at position `k` is the first stray brace: up to there, and not before, more braces close than
open. -/
structure FirstStray (tokens : List Token) (k : Nat) : Prop where
  below : balance (tokens.take (k + 1)) < 0
  level : ∀ count ≤ k, 0 ≤ balance (tokens.take count)

variable {tokens : List Token}

theorem FirstStray.not_lt {j k : Nat} (stray : FirstStray tokens j) (stray' : FirstStray tokens k) : ¬ j < k := by
  intro earlier
  have level := stray'.level (j + 1) earlier
  have below := stray.below
  omega

theorem FirstStray.eq {j k : Nat} (stray : FirstStray tokens j) (stray' : FirstStray tokens k) : j = k :=
  Nat.le_antisymm (Nat.not_lt.mp (stray'.not_lt stray)) (Nat.not_lt.mp (stray.not_lt stray'))

theorem FirstStray.not_sheltered {k : Nat} (stray : FirstStray tokens k) : ¬ Sheltered tokens := by
  intro sheltered
  have level := sheltered (k + 1)
  have below := stray.below
  omega

theorem not_sheltered_iff : ¬ Sheltered tokens ↔ ∃ count, balance (tokens.take count) < 0 := by
  simp [Sheltered]

theorem firstStray_append {front : List Token} (sheltered : Sheltered front) (level : balance front = 0)
    (offset : Nat) (rest : List Token) : FirstStray (front ++ branchClose offset :: rest) front.length := by
  constructor
  · rw [List.take_length_add_append]
    simp [level, lift]
  · intro count within
    rw [List.take_append_of_le_length within]
    exact sheltered count

end Token

open Token (FirstStray Sheltered balance folds)

variable {S : Type}

def Notice.ofPlan? (index : Nat) (plan : Plan S) : Option (Notice S) :=
  plan.attachment.map fun a => .panelPlanned index a plan.target plan.window.startTime plan.window.endTime

theorem Notice.ofPlan?_eq_some_iff {index : Nat} {plan : Plan S} {notice : Notice S} :
    Notice.ofPlan? index plan = some notice ↔ ∃ a, plan.attachment = some a ∧
      notice = .panelPlanned index a plan.target plan.window.startTime plan.window.endTime := by
  simp [ofPlan?, eq_comm]

/-- One notice of the least gravity stands for every plan after the first. -/
structure Notice.Reports (shown : List (Notice S)) (plans : Array (Plan S)) : Prop where
  length_eq : shown.length + 1 = plans.size
  severity_eq : ∀ notice ∈ shown, notice.severity = .debug
  getElem?_eq : ∀ i plan, plans[i + 1]? = some plan → ∃ a, plan.attachment = some a ∧
    shown[i]? = some (.panelPlanned (i + 1) a plan.target plan.window.startTime plan.window.endTime)

theorem Notice.reports_of_added {shown : List (Notice S)} {root : Plan S} {added : List (Plan S)}
    (entries : shown.map some = added.mapIdx fun i plan => Notice.ofPlan? (1 + i) plan) :
    Notice.Reports shown (root :: added).toArray := by
  constructor
  case length_eq =>
    have lengths := congrArg List.length entries
    simpa using lengths
  case severity_eq =>
    intro notice member
    have entry := List.mem_map_of_mem member (f := some)
    rw [entries] at entry
    rcases List.mem_mapIdx.mp entry with ⟨i, bound, reported⟩
    rcases ofPlan?_eq_some_iff.mp reported with ⟨a, _, rfl⟩
    rfl
  case getElem?_eq =>
    intro i plan there
    have there : added[i]? = some plan := by simpa using there
    have entry := congrArg (·[i]?) entries
    simp only [List.getElem?_map, List.getElem?_mapIdx, there, Option.map_some] at entry
    rcases Option.map_eq_some_iff.mp entry with ⟨notice, shows, reported⟩
    rcases ofPlan?_eq_some_iff.mp reported.symm with ⟨a, hangs, rfl⟩
    exact ⟨a, hangs, by rw [shows, Nat.add_comm]⟩

/-- How the notice of a stray brace begins, and how it ends if no token follows the brace. -/
def Notice.strayText (offset : Nat) : String := s!"[parse_grammar] Unmatched '\x7d' at offset {offset}"

theorem Notice.text_strayClose (offset ignored : Nat) : (Notice.strayClose offset ignored).text =
    strayText offset ++ if ignored = 0 then "" else s!" ends the strip, ignoring {ignored} trailing tokens" :=
  rfl

theorem Notice.text_strayClose_iff (offset ignored : Nat) :
    (Notice.strayClose offset ignored).text = strayText offset ↔ ignored = 0 := by
  rw [text_strayClose, String.append_eq_left_iff]
  split
  case isTrue none => simp [none]
  case isFalse some => simp [some]

variable [Scalar S]

theorem ChainRun.plans_follow_branchOpen (settings : Settings S) (offset : Nat) (rest : List Token) (cursor : Cursor S)
    (depth : Nat) (plans : Array (Plan S)) (fits : depth + 1 ≤ settings.maxBranchDepth) :
    (follow settings (.branchOpen offset :: rest) cursor depth plans).plans =
      let branch := follow settings rest (cursor.branch settings) (depth + 1) plans
      (follow settings branch.stop.rest cursor depth branch.plans).plans := by
  rw [follow_branchOpen_of_le settings rest cursor depth plans offset fits]
  generalize follow settings rest (cursor.branch settings) (depth + 1) plans = branch
  rcases branch with ⟨planned, stop⟩
  cases stop with
  | closed _ after => rfl
  | exhausted | tooDeep => simp [ChainEnd.rest]

/-- What a chain reports on the way can be read off the panels that it has added. -/
theorem ChainRun.exists_added (settings : Settings S) (tokens : List Token) (cursor : Cursor S) (depth : Nat)
    (plans : Array (Plan S)) :
    ∃ added, (follow settings tokens cursor depth plans).plans.toList = plans.toList ++ added ∧
      (followNotices settings tokens cursor depth plans).map some =
        added.mapIdx fun i plan => Notice.ofPlan? (plans.size + i) plan := by
  fun_induction followNotices settings tokens cursor depth plans with
  | case1 | case5 => exact ⟨[], by simp, rfl⟩
  | case2 cursor depth plans edge face turn offset rest plan ih =>
    rcases ih with ⟨added, grown, reported⟩
    refine ⟨plan :: added, ?_, ?_⟩
    · rw [follow_fold, grown, Array.toList_push, List.append_assoc]
      rfl
    · rw [List.map_cons, reported, List.mapIdx_cons, Array.size_push]
      simp only [Nat.add_assoc, Nat.add_comm 1]
      rfl
  | case3 cursor depth plans offset rest deep =>
    refine ⟨[], ?_, rfl⟩
    rw [follow_branchOpen_of_lt settings rest cursor depth plans offset deep, List.append_nil]
  | case4 cursor depth plans offset rest shallow branch ih ih' =>
    rcases ih with ⟨inside, grown, reported⟩
    rcases ih' with ⟨behind, grown', reported'⟩
    have size : branch.plans.size = plans.size + inside.length := by
      rw [← Array.length_toList, grown, List.length_append, Array.length_toList]
    refine ⟨inside ++ behind, ?_, ?_⟩
    · rw [plans_follow_branchOpen settings offset rest cursor depth plans (Nat.not_lt.mp shallow), grown', grown,
        List.append_assoc]
    · rw [List.map_append, reported, reported', List.mapIdx_append, size]
      simp only [Nat.add_assoc, Nat.add_comm inside.length]

variable {settings : Settings S} {grammar : String} {startTime : S} {tokens : List Token} {plans : Array (Plan S)}

theorem Notice.reports_followNotices (settings : Settings S) (startTime : S) (tokens : List Token) :
    Notice.Reports (ChainRun.followNotices settings tokens ⟨0, startTime⟩ 0 #[.root startTime])
      (ChainRun.ofTokens settings startTime tokens).plans := by
  rcases ChainRun.exists_added settings tokens ⟨0, startTime⟩ 0 #[.root startTime] with ⟨added, grown, reported⟩
  have same : (ChainRun.ofTokens settings startTime tokens).plans = (.root startTime :: added).toArray :=
    Array.toList_inj.mp grown
  rw [same]
  exact Notice.reports_of_added reported

theorem strayOffset_next (grammar : String) (front rest : List Token) (offset : Nat) :
    strayOffset grammar (front ++ .branchClose offset :: rest)
      ((ChainEnd.closed offset rest).next (front ++ .branchClose offset :: rest)) = offset := by
  rw [ChainEnd.next_closed]
  simp [strayOffset]

theorem Plan.notices_cases (scanned : Token.ofGrammar grammar = .ok tokens)
    (planned : Plan.ofGrammar settings grammar startTime = .ok plans) :
    ∃ shown, Notice.Reports shown plans ∧
      (Sheltered tokens ∧ Plan.notices settings grammar startTime =
          shown ++ [.planned (1 + folds tokens) tokens.length] ∨
        ∃ k offset, FirstStray tokens k ∧ tokens[k]? = some (.branchClose offset) ∧
          (ChainRun.ofTokens settings startTime tokens).stop.next tokens = k + 1 ∧
          Plan.notices settings grammar startTime = shown ++ [.strayClose offset (tokens.length - k - 1),
            .planned (1 + folds (tokens.take k)) tokens.length]) := by
  rcases Plan.exists_stop scanned planned with ⟨front, m, reads, rfl, ends⟩
  have size : m.plans.size = 1 + folds front := by rw [reads.size_plans, Nat.add_comm]
  have reports := Notice.reports_followNotices settings startTime tokens
  rcases ends with ⟨rfl, stops⟩ | ⟨offset, rest, rfl, level, stops⟩
  · rw [stops] at reports
    refine ⟨_, reports, .inl ⟨reads.sheltered, ?_⟩⟩
    simp only [Plan.notices, scanned, stops, size]
  · rw [stops] at reports
    refine ⟨_, reports, .inr ⟨front.length, offset, ?_, by simp, ?_, ?_⟩⟩
    · exact Token.firstStray_append reads.sheltered level offset rest
    · rw [stops]
      exact ChainEnd.next_closed front rest offset
    · simp only [Plan.notices, scanned, stops, size, strayOffset_next]
      rw [ChainEnd.next_closed, List.take_left, Nat.sub_sub]

/-- The notices of a grammar that is planned: its panels in their order, and how many there are of what number of
tokens. There is a warning between them as soon as more braces close than open. It names the place of the first
brace that is one too many, and what follows that brace is not planned. -/
theorem Plan.ofGrammar_noticed (scanned : Token.ofGrammar grammar = .ok tokens)
    (planned : Plan.ofGrammar settings grammar startTime = .ok plans) :
    let notices := Plan.notices settings grammar startTime
    let stop := (ChainRun.ofTokens settings startTime tokens).stop
    ((∃ notice ∈ notices, notice.severity = .warning) ↔ ∃ count, balance (tokens.take count) < 0) ∧
    (∃ shown, Notice.Reports shown plans ∧
      (Sheltered tokens → notices = shown ++ [.planned (1 + folds tokens) tokens.length]) ∧
      ∀ k, FirstStray tokens k → ∃ offset, tokens[k]? = some (.branchClose offset) ∧ stop.next tokens = k + 1 ∧
        notices = shown ++ [.strayClose offset (tokens.length - k - 1),
          .planned (1 + folds (tokens.take k)) tokens.length]) ∧
    ∀ offset ignored, (Notice.strayClose offset ignored).text = Notice.strayText offset ↔ ignored = 0 := by
  intro notices stop
  rcases Plan.notices_cases scanned planned with ⟨shown, reports, ⟨sheltered, same⟩ | ⟨k, offset, stray, there, next, same⟩⟩
  · refine ⟨?_, ⟨shown, reports, fun _ => same, ?_⟩, Notice.text_strayClose_iff⟩
    · rw [← Token.not_sheltered_iff]
      refine iff_of_false ?_ (not_not.mpr sheltered)
      intro warned
      rcases warned with ⟨notice, member, grave⟩
      simp only [notices, same, List.mem_append, List.mem_singleton] at member
      rcases member with member | rfl
      · rw [reports.severity_eq notice member] at grave
        cases grave
      · cases grave
    · intro k stray
      exact absurd sheltered stray.not_sheltered
  · refine ⟨?_, ⟨shown, reports, ?_, ?_⟩, Notice.text_strayClose_iff⟩
    · refine iff_of_true ⟨.strayClose offset (tokens.length - k - 1), ?_, rfl⟩ ⟨k + 1, stray.below⟩
      simp [notices, same]
    · intro sheltered
      exact absurd sheltered stray.not_sheltered
    · intro k' stray'
      cases stray.eq stray'
      exact ⟨offset, there, next, same⟩

/-- The first stray brace stands after a branch in a branch, and one token follows it. -/
theorem Plan.ofGrammar_noticed_stray : ∃ plans shown,
    Plan.ofGrammar .standard "{A0{b1}C2}\x7dD0" (0 : Float32) = .ok plans ∧ Notice.Reports shown plans ∧
      Plan.notices .standard "{A0{b1}C2}\x7dD0" (0 : Float32) = shown ++ [.strayClose 10 1, .planned 4 9] := by
  have planned := (Plan.ofGrammar_eq_run Token.ofGrammar_stray .standard (0 : Float32)).trans rfl
  rcases Plan.ofGrammar_noticed Token.ofGrammar_stray planned with ⟨_, ⟨shown, reports, _, warned⟩, _⟩
  rcases warned 7 ⟨by decide, by decide⟩ with ⟨offset, there, _, same⟩
  cases there
  exact ⟨_, shown, planned, reports, same⟩

end HingedPanels
