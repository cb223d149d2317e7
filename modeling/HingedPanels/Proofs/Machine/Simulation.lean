import HingedPanels.Proofs.Machine.Reads

/-!
Chains and the machine plan alike. A chain that recurses into its branches leaves behind, on the call
stack, the cursors that the machine saves; unwinding them after the chain gives the machine's run.
-/

namespace HingedPanels

variable {S : Type} [Scalar S]

namespace ChainRun

/-- What the outer chains make of a run that ended inside them. The innermost comes first. -/
def unwind (settings : Settings S) (run : ChainRun S) : List (Cursor S) → ChainRun S
  | [] => run
  | cursor :: saved =>
    match run.stop with
    | .closed _ rest => unwind settings (follow settings rest cursor saved.length run.plans) saved
    | .exhausted | .tooDeep _ => run

variable (settings : Settings S) (plans : Array (Plan S))

theorem unwind_exhausted (saved : List (Cursor S)) :
    unwind settings ⟨plans, .exhausted⟩ saved = ⟨plans, .exhausted⟩ := by
  cases saved <;> rfl

theorem unwind_tooDeep (offset : Nat) (saved : List (Cursor S)) :
    unwind settings ⟨plans, .tooDeep offset⟩ saved = ⟨plans, .tooDeep offset⟩ := by
  cases saved <;> rfl

theorem unwind_follow_branchOpen (offset : Nat) (rest : List Token) (cursor : Cursor S)
    (saved : List (Cursor S)) (fits : saved.length + 1 ≤ settings.maxBranchDepth) :
    unwind settings (follow settings (.branchOpen offset :: rest) cursor saved.length plans) saved =
      unwind settings (follow settings rest (cursor.branch settings) (saved.length + 1) plans)
        (cursor :: saved) := by
  rw [follow_branchOpen_of_le settings rest cursor saved.length plans offset fits]
  generalize follow settings rest (cursor.branch settings) (saved.length + 1) plans = branch
  rcases branch with ⟨planned, stop⟩
  cases stop with
  | exhausted => exact unwind_exhausted settings planned saved
  | closed _ after => rfl
  | tooDeep deep => exact unwind_tooDeep settings planned deep saved

theorem run_eq_unwind (tokens : List Token) (cursor : Cursor S) (saved : List (Cursor S)) :
    Machine.run settings tokens ⟨cursor, saved, plans⟩ =
      unwind settings (follow settings tokens cursor saved.length plans) saved := by
  -- The tokens alone shrink; the chains that wait are carried along as saved cursors.
  induction tokens generalizing cursor saved plans with
  | nil => rw [follow_nil, unwind_exhausted]; rfl
  | cons token rest ih =>
    cases token with
    | fold edge face turn offset => rw [follow_fold, Machine.run]; exact ih _ _ saved
    | branchOpen offset =>
      rw [Machine.run]
      split
      case isTrue deep =>
        rw [follow_branchOpen_of_lt settings rest cursor saved.length plans offset deep, unwind_tooDeep]
      case isFalse fits =>
        have fits : saved.length + 1 ≤ settings.maxBranchDepth := Nat.not_lt.mp fits
        rw [unwind_follow_branchOpen settings plans offset rest cursor saved fits]
        exact ih plans (cursor.branch settings) (cursor :: saved)
    | branchClose offset =>
      rw [follow_branchClose]
      cases saved with
      | nil => rfl
      | cons outer saved => exact ih plans outer saved

end ChainRun

theorem ChainEnd.next_closed (front rest : List Token) (offset : Nat) :
    (closed offset rest).next (front ++ .branchClose offset :: rest) = front.length + 1 := by
  simp only [next, ChainEnd.rest, List.length_append, List.length_cons]
  omega

namespace Machine

variable {settings : Settings S} {m : Machine S} {front left : List Token} {stop : ChainEnd}

omit [Scalar S] in
theorem Halts.rest_eq_drop (halts : Halts settings m left stop) :
    stop.rest = (front ++ left).drop (stop.next (front ++ left)) := by
  cases halts with
  | exhausted => simp [ChainEnd.next, ChainEnd.rest]
  | closed offset rest _ =>
    rw [ChainEnd.next_closed]
    simp [ChainEnd.rest]
  | tooDeep offset rest _ => simp [ChainEnd.next, ChainEnd.rest]

omit [Scalar S] in
theorem Halts.getElem?_next (halts : Halts settings m left stop) {offset : Nat} {rest : List Token}
    (closed : stop = .closed offset rest) :
    (front ++ left)[stop.next (front ++ left) - 1]? = some (.branchClose offset) := by
  subst closed
  cases halts
  rw [ChainEnd.next_closed]
  simp

end Machine

theorem ChainRun.ofTokens_eq_machine (settings : Settings S) (startTime : S) (tokens : List Token) :
    ofTokens settings startTime tokens = Machine.run settings tokens (.start startTime) :=
  (run_eq_unwind settings #[.root startTime] tokens ⟨0, startTime⟩ []).symm

/-- Following chains through their branches and reading the tokens once from left to right with a stack of
cursors plan the same panels and stop for the same reason at the same token. -/
theorem ChainRun.ofTokens_eq_run (settings : Settings S) (startTime : S) (tokens : List Token) :
    let chain := ofTokens settings startTime tokens
    chain = Machine.run settings tokens (.start startTime) ∧
      chain.stop.rest = tokens.drop (chain.stop.next tokens) ∧
      ∀ offset rest, chain.stop = .closed offset rest →
        tokens[chain.stop.next tokens - 1]? = some (.branchClose offset) := by
  intro chain
  have same : chain = Machine.run settings tokens (.start startTime) :=
    ofTokens_eq_machine settings startTime tokens
  obtain ⟨front, left, _, parts, _, halts, _⟩ := Machine.run_reads (.start : Machine.Reads settings startTime _ _) tokens
  rw [← same] at halts
  rw [List.nil_append] at *
  subst parts
  exact ⟨same, halts.rest_eq_drop, fun _ _ closed => halts.getElem?_next closed⟩

theorem Plan.ofGrammar_eq_run {grammar : String} {tokens : List Token}
    (scanned : Token.ofGrammar grammar = .ok tokens) (settings : Settings S) (startTime : S) :
    Plan.ofGrammar settings grammar startTime =
      (Machine.run settings tokens (.start startTime)).result settings := by
  rw [Plan.ofGrammar, scanned, ← ChainRun.ofTokens_eq_machine]

omit [Scalar S] in
theorem ChainRun.result_eq_ok_iff {settings : Settings S} {run : ChainRun S} {plans : Array (Plan S)} :
    run.result settings = .ok plans ↔ run.plans = plans ∧ ∀ offset, run.stop ≠ .tooDeep offset := by
  obtain ⟨planned, stop⟩ := run
  cases stop <;> simp [result]

theorem Plan.exists_stop {settings : Settings S} {grammar : String} {startTime : S} {tokens : List Token}
    {plans : Array (Plan S)} (scanned : Token.ofGrammar grammar = .ok tokens)
    (planned : Plan.ofGrammar settings grammar startTime = .ok plans) :
    ∃ front m, Machine.Reads settings startTime front m ∧ m.plans = plans ∧
      (tokens = front ∧ ChainRun.ofTokens settings startTime tokens = ⟨plans, .exhausted⟩ ∨
        ∃ offset rest, tokens = front ++ .branchClose offset :: rest ∧ Token.balance front = 0 ∧
          ChainRun.ofTokens settings startTime tokens = ⟨plans, .closed offset rest⟩) := by
  rcases Machine.run_reads (.start : Machine.Reads settings startTime _ _) tokens with
    ⟨front, left, m, parts, reads, halts, same⟩
  rw [List.nil_append] at reads
  rw [Plan.ofGrammar_eq_run scanned] at planned
  rw [ChainRun.ofTokens_eq_machine]
  rcases ChainRun.result_eq_ok_iff.mp planned with ⟨whole, ended⟩
  generalize Machine.run settings tokens (.start startTime) = run at *
  rcases run with ⟨_, stop⟩
  dsimp only at *
  subst whole
  refine ⟨front, m, reads, same.symm, ?_⟩
  cases halts with
  | exhausted => exact .inl ⟨by simpa using parts, rfl⟩
  | closed offset rest free =>
    have level : Token.balance front = 0 := by rw [← reads.balance_eq, free]; rfl
    exact .inr ⟨offset, rest, parts, level, rfl⟩
  | tooDeep offset rest deep => exact absurd rfl (ended offset)

theorem Plan.ofGrammar_reads {settings : Settings S} {grammar : String} {startTime : S}
    {plans : Array (Plan S)} (planned : Plan.ofGrammar settings grammar startTime = .ok plans) :
    ∃ tokens front m, Token.ofGrammar grammar = .ok tokens ∧ Token.Live tokens front ∧
      Machine.Reads settings startTime front m ∧ m.plans = plans := by
  cases scanned : Token.ofGrammar grammar with
  | error fault =>
    rw [Plan.ofGrammar, scanned] at planned
    cases planned
  | ok tokens =>
    rcases Plan.exists_stop scanned planned with ⟨front, m, reads, same, ⟨whole, _⟩ | ⟨offset, rest, parts, level, _⟩⟩
    · exact ⟨tokens, front, m, rfl, ⟨reads.sheltered, .inl whole⟩, reads, same⟩
    · exact ⟨tokens, front, m, rfl, ⟨reads.sheltered, .inr ⟨offset, rest, parts, level⟩⟩, reads, same⟩

end HingedPanels
