import HingedPanels.Proofs.Chain.Follows

namespace HingedPanels

variable {S : Type} [Scalar S]

namespace ChainRun

/-- How many chains are followed at once, one inside the other, at the most while this one is followed. -/
def nesting (settings : Settings S) (tokens : List Token) (cursor : Cursor S) (depth : Nat)
    (plans : Array (Plan S)) : Nat :=
  match tokens with
  | [] => 1
  | .fold edge face turn offset :: rest =>
    let plan := Plan.fold settings cursor depth edge face turn offset
    nesting settings rest ⟨plans.size, plan.window.endTime⟩ depth (plans.push plan)
  | .branchOpen _ :: rest =>
    if settings.maxBranchDepth < depth + 1 then 1
    else
      let branch := follow settings rest (cursor.branch settings) (depth + 1) plans
      max (nesting settings rest (cursor.branch settings) (depth + 1) plans + 1)
        (nesting settings branch.stop.rest cursor depth branch.plans)
  | .branchClose _ :: _ => 1
termination_by tokens.length
decreasing_by
  · simp
  · simp
  · exact Nat.lt_succ_of_le (rest_length_follow_le settings (cursor.branch settings) (depth + 1) plans rest)

theorem nesting_le (settings : Settings S) (tokens : List Token) (cursor : Cursor S) (depth : Nat)
    (plans : Array (Plan S)) (fits : depth ≤ settings.maxBranchDepth) :
    nesting settings tokens cursor depth plans + depth ≤ settings.maxBranchDepth + 1 := by
  fun_induction nesting settings tokens cursor depth plans with
  | case1 => omega
  | case2 _ _ _ _ _ _ _ _ _ ih => exact ih fits
  | case3 => omega
  | case4 _ _ _ _ _ shallow _ ih ih' =>
    have inside := ih (Nat.not_lt.mp shallow)
    have onward := ih' fits
    omega
  | case5 => omega

theorem nesting_pos (settings : Settings S) (tokens : List Token) (cursor : Cursor S) (depth : Nat)
    (plans : Array (Plan S)) : 0 < nesting settings tokens cursor depth plans := by
  fun_induction nesting settings tokens cursor depth plans with
  | case1 | case3 | case5 => exact Nat.one_pos
  | case2 _ _ _ _ _ _ _ _ _ ih => exact ih
  | case4 => omega

end ChainRun

namespace ChainHead

def nesting (head : ChainHead S) (settings : Settings S) (tokens : List Token) : Nat :=
  ChainRun.nesting settings (tokens.drop head.position) head.cursor head.depth head.plans

/-- The numbers of chains, from the one at `head` inwards, that are followed at once where it leads to. -/
def nestings (head : ChainHead S) (settings : Settings S) (tokens : List Token) : Set Nat :=
  {n | ∃ later, Relation.ReflTransGen (Leads settings tokens) head later ∧ n + head.depth = later.depth + 1}

variable {settings : Settings S} {tokens : List Token} {head later : ChainHead S} {offset : Nat}

theorem nesting_of_fold {edge : Edge} {face : Face} {turn : Turn}
    (here : tokens[head.position]? = some (.fold edge face turn offset)) :
    head.nesting settings tokens = (head.fold settings edge face turn offset).nesting settings tokens := by
  rw [nesting, Token.drop_of_getElem? here, ChainRun.nesting]
  rfl

theorem nesting_of_branchOpen (here : tokens[head.position]? = some (.branchOpen offset))
    (fits : head.depth + 1 ≤ settings.maxBranchDepth) :
    head.nesting settings tokens = max ((head.branch settings).nesting settings tokens + 1)
      ((head.past tokens ((head.branch settings).run settings tokens)).nesting settings tokens) := by
  have left := (follows_iff.mpr rfl : Follows settings tokens (head.branch settings) _).rest_eq_drop
  rw [nesting, Token.drop_of_getElem? here, ChainRun.nesting, if_neg (Nat.not_lt.mpr fits)]
  rw [nesting, nesting, past, ← left]
  rfl

theorem nesting_past_of_rest {branch : ChainRun S} (ended : branch.stop.rest = []) :
    (head.past tokens branch).nesting settings tokens = 1 := by
  have drop : tokens.drop (branch.stop.next tokens) = [] := by simp [ChainEnd.next, ended]
  rw [nesting, past, drop, ChainRun.nesting]

end ChainHead

variable {settings : Settings S} {tokens : List Token} {head later : ChainHead S}

theorem ChainHead.one_mem_nestings : 1 ∈ head.nestings settings tokens := ⟨head, .refl, Nat.add_comm _ _⟩

theorem Leads.mem_nestings {count count' : Nat} (leads : Leads settings tokens head later)
    (inside : count' ∈ later.nestings settings tokens) (same : count + head.depth = count' + later.depth) :
    count ∈ head.nestings settings tokens := by
  obtain ⟨deepest, path, height⟩ := inside
  exact ⟨deepest, .head leads path, by omega⟩

theorem Leads.nesting_le (leads : Leads settings tokens head later) :
    later.nesting settings tokens + later.depth ≤ head.nesting settings tokens + head.depth := by
  cases leads with
  | fold here => rw [ChainHead.nesting_of_fold here]; rfl
  | branch here fits =>
    have inside := le_max_left ((head.branch settings).nesting settings tokens + 1)
      ((head.past tokens ((head.branch settings).run settings tokens)).nesting settings tokens)
    rw [ChainHead.nesting_of_branchOpen here fits]
    change _ + (head.depth + 1) ≤ _
    omega
  | @past _ branch _ _ here fits inside closed =>
    rw [ChainHead.nesting_of_branchOpen here fits, inside.run_eq]
    exact Nat.add_le_add_right (le_max_right _ _) _

/-- Where a branch may open, the deeper one of the branch and what comes behind it decides. -/
theorem ChainHead.nesting_mem_of_branchOpen {offset : Nat} (here : tokens[head.position]? = some (.branchOpen offset))
    (fits : head.depth + 1 ≤ settings.maxBranchDepth)
    (ih : ∀ later, Leads settings tokens head later → later.nesting settings tokens ∈ later.nestings settings tokens) :
    head.nesting settings tokens ∈ head.nestings settings tokens := by
  have parts := nesting_of_branchOpen here fits
  have inside : Follows settings tokens (head.branch settings) _ := follows_iff.mpr rfl
  have level : (head.branch settings).depth = head.depth + 1 := rfl
  have entered := ih _ (.branch here fits)
  generalize (head.branch settings).run settings tokens = branch at parts inside
  rcases Nat.le_total ((head.past tokens branch).nesting settings tokens)
      ((head.branch settings).nesting settings tokens + 1) with less | more
  · exact (Leads.branch here fits).mem_nestings entered (by omega)
  · cases stop : branch.stop with
    | closed closing rest =>
      have leads : Leads settings tokens head (head.past tokens branch) := .past here fits inside stop
      have level' : (head.past tokens branch).depth = head.depth := rfl
      exact leads.mem_nestings (ih _ leads) (by omega)
    | exhausted | tooDeep =>
      rw [nesting_past_of_rest (by rw [stop]; rfl)] at parts
      exact (Leads.branch here fits).mem_nestings entered (by omega)

theorem ChainHead.nesting_mem (settings : Settings S) (tokens : List Token) (head : ChainHead S) :
    head.nesting settings tokens ∈ head.nestings settings tokens := by
  induction head using (wellFounded_leads settings tokens).induction with
  | _ head ih =>
    -- A chain that can go nowhere is followed alone.
    have alone (same : head.nesting settings tokens = 1) :
        head.nesting settings tokens ∈ head.nestings settings tokens := same ▸ one_mem_nestings
    cases here : tokens[head.position]? with
    | none =>
      apply alone
      rw [nesting, List.drop_eq_nil_of_le (List.getElem?_eq_none_iff.mp here), ChainRun.nesting]
    | some token =>
      cases token with
      | fold edge face turn offset =>
        have same : head.nesting settings tokens = _ := nesting_of_fold here
        exact (Leads.fold here).mem_nestings (ih _ (.fold here)) (by rw [same]; rfl)
      | branchClose offset =>
        apply alone
        rw [nesting, Token.drop_of_getElem? here, ChainRun.nesting]
      | branchOpen offset =>
        by_cases deep : settings.maxBranchDepth < head.depth + 1
        · apply alone
          rw [nesting, Token.drop_of_getElem? here, ChainRun.nesting, if_pos deep]
        · exact nesting_mem_of_branchOpen here (Nat.not_lt.mp deep) ih

/-- Chains are nested as deep as the places that the first one leads to by turns and branches. -/
theorem ChainHead.isGreatest_nesting (settings : Settings S) (tokens : List Token) (head : ChainHead S) :
    IsGreatest (head.nestings settings tokens) (head.nesting settings tokens) := by
  refine ⟨nesting_mem settings tokens head, ?_⟩
  rintro count ⟨later, path, same⟩
  have bound : later.nesting settings tokens + later.depth ≤ head.nesting settings tokens + head.depth := by
    clear same
    induction path with
    | refl => rfl
    | tail _ leads ih => exact leads.nesting_le.trans ih
  have positive : 0 < later.nesting settings tokens := ChainRun.nesting_pos ..
  omega

end HingedPanels
