import HingedPanels.Proofs.Machine.Simulation

/-!
A chain position by position. The rules say what a chain does at one token and take no bound for granted: it
goes on behind a branch at whatever position the branch has stopped. Still every turn of a chain and every
branch it enters starts at a later position, so the rules come to an end everywhere, and what they give is the
run that planning computes.
-/

namespace HingedPanels

variable {S : Type} [Scalar S]

/-- Where a chain stands: before the token at a position, with the panels planned so far. -/
structure ChainHead (S : Type) where
  position : Nat
  cursor : Cursor S
  depth : Nat
  plans : Array (Plan S)
  deriving DecidableEq, Repr

namespace ChainHead

def fold (head : ChainHead S) (settings : Settings S) (edge : Edge) (face : Face) (turn : Turn) (offset : Nat) :
    ChainHead S :=
  let plan := Plan.fold settings head.cursor head.depth edge face turn offset
  ⟨head.position + 1, ⟨head.plans.size, plan.window.endTime⟩, head.depth, head.plans.push plan⟩

def branch (head : ChainHead S) (settings : Settings S) : ChainHead S :=
  ⟨head.position + 1, head.cursor.branch settings, head.depth + 1, head.plans⟩

def past (head : ChainHead S) (tokens : List Token) (branch : ChainRun S) : ChainHead S :=
  ⟨branch.stop.next tokens, head.cursor, head.depth, branch.plans⟩

def run (head : ChainHead S) (settings : Settings S) (tokens : List Token) : ChainRun S :=
  .follow settings (tokens.drop head.position) head.cursor head.depth head.plans

end ChainHead

/-- A chain that stands at `head` has this run. -/
inductive Follows (settings : Settings S) (tokens : List Token) : ChainHead S → ChainRun S → Prop
  | exhausted {head} (ends : tokens[head.position]? = none) :
      Follows settings tokens head ⟨head.plans, .exhausted⟩
  | fold {head edge face turn offset run} (here : tokens[head.position]? = some (.fold edge face turn offset))
      (onward : Follows settings tokens (head.fold settings edge face turn offset) run) :
      Follows settings tokens head run
  | branchClose {head offset} (here : tokens[head.position]? = some (.branchClose offset)) :
      Follows settings tokens head ⟨head.plans, .closed offset (tokens.drop (head.position + 1))⟩
  | tooDeep {head offset} (here : tokens[head.position]? = some (.branchOpen offset))
      (deep : settings.maxBranchDepth < head.depth + 1) :
      Follows settings tokens head ⟨head.plans, .tooDeep offset⟩
  | unclosed {head offset branch} (here : tokens[head.position]? = some (.branchOpen offset))
      (fits : head.depth + 1 ≤ settings.maxBranchDepth)
      (inside : Follows settings tokens (head.branch settings) branch)
      (unclosed : ∀ closing rest, branch.stop ≠ .closed closing rest) :
      Follows settings tokens head branch
  | past {head offset branch closing rest run} (here : tokens[head.position]? = some (.branchOpen offset))
      (fits : head.depth + 1 ≤ settings.maxBranchDepth)
      (inside : Follows settings tokens (head.branch settings) branch)
      (closed : branch.stop = .closed closing rest)
      (onward : Follows settings tokens (head.past tokens branch) run) :
      Follows settings tokens head run

/-- From `head` a chain comes to its next turn, or enters a branch. -/
inductive Leads (settings : Settings S) (tokens : List Token) : ChainHead S → ChainHead S → Prop
  | fold {head edge face turn offset} (here : tokens[head.position]? = some (.fold edge face turn offset)) :
      Leads settings tokens head (head.fold settings edge face turn offset)
  | branch {head offset} (here : tokens[head.position]? = some (.branchOpen offset))
      (fits : head.depth + 1 ≤ settings.maxBranchDepth) :
      Leads settings tokens head (head.branch settings)
  | past {head offset branch closing rest} (here : tokens[head.position]? = some (.branchOpen offset))
      (fits : head.depth + 1 ≤ settings.maxBranchDepth)
      (inside : Follows settings tokens (head.branch settings) branch)
      (closed : branch.stop = .closed closing rest) :
      Leads settings tokens head (head.past tokens branch)

theorem Token.drop_of_getElem? {tokens : List Token} {position : Nat} {token : Token}
    (here : tokens[position]? = some token) : tokens.drop position = token :: tokens.drop (position + 1) := by
  rw [List.drop_eq_getElem?_toList_append, here]
  rfl

theorem Token.lt_of_getElem? {tokens : List Token} {position : Nat} {token : Token}
    (here : tokens[position]? = some token) : position < tokens.length :=
  (List.getElem?_eq_some_iff.mp here).1

theorem ChainEnd.next_le (tokens : List Token) (stop : ChainEnd) : stop.next tokens ≤ tokens.length :=
  Nat.sub_le _ _

theorem ChainEnd.next_closed_drop {tokens : List Token} {position : Nat} (within : position < tokens.length)
    (offset : Nat) : (closed offset (tokens.drop (position + 1))).next tokens = position + 1 := by
  simp only [next, rest, List.length_drop]
  omega

section Progress

variable {settings : Settings S} {tokens : List Token} {head later : ChainHead S} {run : ChainRun S}

theorem Follows.rest_eq_drop (follows : Follows settings tokens head run) :
    run.stop.rest = tokens.drop (run.stop.next tokens) := by
  apply List.suffix_iff_eq_drop.mp
  induction follows with
  | exhausted | tooDeep => exact List.nil_suffix
  | branchClose => exact List.drop_suffix _ _
  | fold _ _ ih | unclosed _ _ _ _ ih | past _ _ _ _ _ _ ih => exact ih

theorem Follows.position_lt (follows : Follows settings tokens head run) {offset : Nat} {rest : List Token}
    (closed : run.stop = .closed offset rest) : head.position < run.stop.next tokens := by
  induction follows generalizing offset rest with
  | exhausted | tooDeep => cases closed
  | branchClose here =>
    rw [ChainEnd.next_closed_drop (Token.lt_of_getElem? here)]
    exact Nat.lt_succ_self _
  | fold _ _ ih => exact Nat.lt_of_succ_lt (ih closed)
  | unclosed _ _ _ unclosed => exact absurd closed (unclosed _ _)
  | past _ _ _ inner _ inside onward => exact (Nat.lt_of_succ_lt (inside inner)).trans (onward closed)

theorem Leads.position_lt (leads : Leads settings tokens head later) :
    head.position < later.position ∧ later.position ≤ tokens.length := by
  cases leads with
  | fold here => exact ⟨Nat.lt_succ_self _, Token.lt_of_getElem? here⟩
  | branch here fits => exact ⟨Nat.lt_succ_self _, Token.lt_of_getElem? here⟩
  | past here fits inside closed => exact ⟨Nat.lt_of_succ_lt (inside.position_lt closed), ChainEnd.next_le tokens _⟩

theorem wellFounded_leads (settings : Settings S) (tokens : List Token) :
    WellFounded fun later head : ChainHead S => Leads settings tokens head later := by
  refine Subrelation.wf ?_ (measure fun head : ChainHead S => tokens.length - head.position).wf
  intro later head leads
  have progress := leads.position_lt
  change tokens.length - later.position < tokens.length - head.position
  omega

theorem Leads.of_isChain {path : List (ChainHead S)} (leads : (head :: path).IsChain (Leads settings tokens)) :
    (∀ later ∈ path, head.position < later.position ∧ later.position ≤ tokens.length) ∧
      path.length ≤ tokens.length - head.position := by
  induction path generalizing head with
  | nil => simp
  | cons next path ih =>
    rcases List.isChain_cons_cons.mp leads with ⟨first, others⟩
    rcases ih others with ⟨beyond, short⟩
    have progress := first.position_lt
    constructor
    · intro later member
      rcases List.mem_cons.mp member with rfl | member
      · exact progress
      · exact ⟨progress.1.trans (beyond later member).1, (beyond later member).2⟩
    · rw [List.length_cons]
      omega

end Progress

section Runs

variable {settings : Settings S} {tokens : List Token} {head : ChainHead S} {run : ChainRun S}

theorem Follows.exists_run (settings : Settings S) (tokens : List Token) (head : ChainHead S) :
    ∃ run, Follows settings tokens head run := by
  -- Where a chain goes on behind a branch is known only once the branch has a run, and then lies further on.
  induction head using (wellFounded_leads settings tokens).induction with
  | _ head ih =>
    cases here : tokens[head.position]? with
    | none => exact ⟨_, .exhausted here⟩
    | some token =>
      cases token with
      | fold edge face turn offset =>
        rcases ih _ (.fold here) with ⟨run, onward⟩
        exact ⟨run, .fold here onward⟩
      | branchClose offset => exact ⟨_, .branchClose here⟩
      | branchOpen offset =>
        by_cases deep : settings.maxBranchDepth < head.depth + 1
        · exact ⟨_, .tooDeep here deep⟩
        · have fits := Nat.not_lt.mp deep
          rcases ih _ (.branch here fits) with ⟨branch, inside⟩
          by_cases closed : ∃ closing rest, branch.stop = .closed closing rest
          · rcases closed with ⟨closing, rest, closed⟩
            rcases ih _ (.past here fits inside closed) with ⟨run, onward⟩
            exact ⟨run, .past here fits inside closed onward⟩
          · exact ⟨branch, .unclosed here fits inside fun closing rest same => closed ⟨closing, rest, same⟩⟩

theorem ChainHead.run_of_branchOpen {offset : Nat} (here : tokens[head.position]? = some (.branchOpen offset))
    (fits : head.depth + 1 ≤ settings.maxBranchDepth) :
    head.run settings tokens =
      let branch := (head.branch settings).run settings tokens
      match branch.stop with
      | .closed _ after => .follow settings after head.cursor head.depth branch.plans
      | .exhausted | .tooDeep _ => branch := by
  rw [run, Token.drop_of_getElem? here]
  exact ChainRun.follow_branchOpen_of_le settings _ _ _ _ offset fits

theorem Follows.run_eq (follows : Follows settings tokens head run) : head.run settings tokens = run := by
  induction follows with
  | exhausted ends =>
    rw [ChainHead.run, List.drop_eq_nil_of_le (List.getElem?_eq_none_iff.mp ends), ChainRun.follow_nil]
  | fold here _ ih =>
    rw [ChainHead.run, Token.drop_of_getElem? here, ChainRun.follow_fold]
    exact ih
  | branchClose here => rw [ChainHead.run, Token.drop_of_getElem? here, ChainRun.follow_branchClose]
  | tooDeep here deep =>
    rw [ChainHead.run, Token.drop_of_getElem? here]
    exact ChainRun.follow_branchOpen_of_lt settings _ _ _ _ _ deep
  | @unclosed head offset branch here fits _ unclosed ih =>
    rw [ChainHead.run_of_branchOpen here fits, ih]
    rcases branch with ⟨planned, stop⟩
    cases stop with
    | exhausted | tooDeep => rfl
    | closed closing rest => exact absurd rfl (unclosed closing rest)
  | @past head offset branch closing rest run here fits inside closed _ ih onward =>
    rw [ChainHead.run_of_branchOpen here fits, ih]
    rcases branch with ⟨planned, stop⟩
    dsimp only at closed
    subst closed
    have left : rest = _ := inside.rest_eq_drop
    rw [ChainHead.run, ChainHead.past, ← left] at onward
    exact onward

theorem follows_iff : Follows settings tokens head run ↔ run = head.run settings tokens := by
  constructor
  · intro follows
    exact follows.run_eq.symm
  · rintro rfl
    rcases Follows.exists_run settings tokens head with ⟨run, follows⟩
    rwa [follows.run_eq]

end Runs

end HingedPanels
