import HingedPanels.Plan

/-!
A chain is a run of folds, each hanging on the one before it. A branch is a chain of its own, one level
deeper, after which the outer chain goes on from where it stood. A chain ends at its closing brace or
with the text, and a text that ends inside a branch ends every chain.
-/

namespace HingedPanels

inductive ChainEnd where
  | exhausted
  | closed (offset : Nat) (rest : List Token)
  | tooDeep (offset : Nat)
  deriving DecidableEq, Repr

def ChainEnd.rest : ChainEnd → List Token
  | closed _ rest => rest
  | exhausted | tooDeep _ => []

/-- The number of tokens up to where a chain stopped, with the brace that closed it. -/
def ChainEnd.next (tokens : List Token) (stop : ChainEnd) : Nat := tokens.length - stop.rest.length

structure ChainRun (S : Type) where
  plans : Array (Plan S)
  stop : ChainEnd
  deriving DecidableEq, Repr

variable {S : Type} [Scalar S]

namespace ChainRun

/-- Follows a chain, adding its panels and those of its branches. What it leaves is no longer than what
it was given, so the outer chain can go on from there. -/
def followWithin (settings : Settings S) (tokens : List Token) (cursor : Cursor S) (depth : Nat)
    (plans : Array (Plan S)) : { run : ChainRun S // run.stop.rest.length ≤ tokens.length } :=
  match tokens with
  | [] => ⟨⟨plans, .exhausted⟩, Nat.le_refl _⟩
  | .fold edge face turn offset :: rest =>
    let plan := Plan.fold settings cursor depth edge face turn offset
    let run := followWithin settings rest ⟨plans.size, plan.window.endTime⟩ depth (plans.push plan)
    ⟨run.1, Nat.le_succ_of_le run.2⟩
  | .branchOpen offset :: rest =>
    if settings.maxBranchDepth < depth + 1 then ⟨⟨plans, .tooDeep offset⟩, Nat.zero_le _⟩
    else
      match followWithin settings rest (cursor.branch settings) (depth + 1) plans with
      | ⟨⟨plans, .closed _ after⟩, shorter⟩ =>
        let run := followWithin settings after cursor depth plans
        ⟨run.1, Nat.le_succ_of_le (Nat.le_trans run.2 shorter)⟩
      | ⟨⟨plans, .exhausted⟩, _⟩ => ⟨⟨plans, .exhausted⟩, Nat.zero_le _⟩
      | ⟨⟨plans, .tooDeep offset⟩, _⟩ => ⟨⟨plans, .tooDeep offset⟩, Nat.zero_le _⟩
  | .branchClose offset :: rest => ⟨⟨plans, .closed offset rest⟩, Nat.le_succ _⟩
termination_by tokens.length
decreasing_by
  · simp
  · simp
  · exact Nat.lt_succ_of_le shorter

def follow (settings : Settings S) (tokens : List Token) (cursor : Cursor S) (depth : Nat)
    (plans : Array (Plan S)) : ChainRun S :=
  (followWithin settings tokens cursor depth plans).1

section Equations

variable (settings : Settings S) (rest : List Token) (cursor : Cursor S) (depth : Nat) (plans : Array (Plan S))

theorem rest_length_follow_le (tokens : List Token) :
    (follow settings tokens cursor depth plans).stop.rest.length ≤ tokens.length :=
  (followWithin settings tokens cursor depth plans).2

@[simp] theorem follow_nil : follow settings [] cursor depth plans = ⟨plans, .exhausted⟩ := by
  simp [follow, followWithin]

@[simp] theorem follow_fold (edge : Edge) (face : Face) (turn : Turn) (offset : Nat) :
    follow settings (.fold edge face turn offset :: rest) cursor depth plans =
      let plan := Plan.fold settings cursor depth edge face turn offset
      follow settings rest ⟨plans.size, plan.window.endTime⟩ depth (plans.push plan) := by
  simp [follow, followWithin]

@[simp] theorem follow_branchClose (offset : Nat) :
    follow settings (.branchClose offset :: rest) cursor depth plans = ⟨plans, .closed offset rest⟩ := by
  simp [follow, followWithin]

theorem follow_branchOpen_of_lt (offset : Nat) (deep : settings.maxBranchDepth < depth + 1) :
    follow settings (.branchOpen offset :: rest) cursor depth plans = ⟨plans, .tooDeep offset⟩ := by
  simp [follow, followWithin, deep]

theorem follow_branchOpen_of_le (offset : Nat) (fits : depth + 1 ≤ settings.maxBranchDepth) :
    follow settings (.branchOpen offset :: rest) cursor depth plans =
      let branch := follow settings rest (cursor.branch settings) (depth + 1) plans
      match branch.stop with
      | .closed _ after => follow settings after cursor depth branch.plans
      | .exhausted | .tooDeep _ => branch := by
  have fits : ¬ settings.maxBranchDepth < depth + 1 := Nat.not_lt.mpr fits
  simp only [follow, followWithin, if_neg fits]
  rcases followWithin settings rest (cursor.branch settings) (depth + 1) plans with ⟨⟨inner, stop⟩, shorter⟩
  cases stop <;> rfl

end Equations

def ofTokens (settings : Settings S) (startTime : S) (tokens : List Token) : ChainRun S :=
  follow settings tokens ⟨0, startTime⟩ 0 #[.root startTime]

/-- Nesting that is too deep refuses the whole strip. A closing brace without a branch ends it. -/
def result (settings : Settings S) (run : ChainRun S) : Except GrammarError (Array (Plan S)) :=
  match run.stop with
  | .tooDeep offset => .error ⟨offset, some '{', .branchTooDeep settings.maxBranchDepth⟩
  | .closed _ _ | .exhausted => .ok run.plans

end ChainRun

/-- The plan of a grammar. The whole text has to consist of tokens, also where a stray brace ends the
strip before. -/
def Plan.ofGrammar (settings : Settings S) (grammar : String) (startTime : S) :
    Except GrammarError (Array (Plan S)) :=
  match Token.ofGrammar grammar with
  | .error fault => .error fault
  | .ok tokens => (ChainRun.ofTokens settings startTime tokens).result settings

end HingedPanels
