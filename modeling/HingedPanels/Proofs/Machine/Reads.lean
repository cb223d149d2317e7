import HingedPanels.Plan.Machine
import HingedPanels.Proofs.Token.Balance

/-!
A run of the machine token by token: it reads tokens as long as it can and then halts. What holds of the
machine after every token it reads is proved by induction on `Reads`.
-/

namespace HingedPanels.Machine

variable {S : Type} [Scalar S]

/-- The machine `m` has read the tokens `front` since it was started. -/
inductive Reads (settings : Settings S) (startTime : S) : List Token → Machine S → Prop
  | start : Reads settings startTime [] (.start startTime)
  | fold {front m} (reads : Reads settings startTime front m)
      (edge : Edge) (face : Face) (turn : Turn) (offset : Nat) :
      Reads settings startTime (front ++ [.fold edge face turn offset])
        (m.add (Plan.fold settings m.cursor m.saved.length edge face turn offset))
  | branchOpen {front m} (reads : Reads settings startTime front m) (offset : Nat)
      (fits : m.saved.length + 1 ≤ settings.maxBranchDepth) :
      Reads settings startTime (front ++ [.branchOpen offset])
        ⟨m.cursor.branch settings, m.cursor :: m.saved, m.plans⟩
  | branchClose {front cursor outer saved plans}
      (reads : Reads settings startTime front ⟨cursor, outer :: saved, plans⟩) (offset : Nat) :
      Reads settings startTime (front ++ [.branchClose offset]) ⟨outer, saved, plans⟩

inductive Halts (settings : Settings S) (m : Machine S) : List Token → ChainEnd → Prop
  | exhausted : Halts settings m [] .exhausted
  | closed (offset : Nat) (rest : List Token) (free : m.saved = []) :
      Halts settings m (.branchClose offset :: rest) (.closed offset rest)
  | tooDeep (offset : Nat) (rest : List Token) (deep : settings.maxBranchDepth < m.saved.length + 1) :
      Halts settings m (.branchOpen offset :: rest) (.tooDeep offset)

theorem run_reads {settings : Settings S} {startTime : S} {front : List Token} {m : Machine S}
    (reads : Reads settings startTime front m) (tokens : List Token) :
    ∃ more left last, tokens = more ++ left ∧ Reads settings startTime (front ++ more) last ∧
      Halts settings last left (run settings tokens m).stop ∧ (run settings tokens m).plans = last.plans := by
  induction tokens generalizing front m with
  | nil => exact ⟨[], [], m, rfl, by simpa using reads, .exhausted, rfl⟩
  | cons token rest ih =>
    cases token with
    | fold edge face turn offset =>
      rcases ih (.fold reads edge face turn offset) with ⟨more, left, last, parts, onward, halts, planned⟩
      exact ⟨_ :: more, left, last, congrArg _ parts, by simpa using onward, halts, planned⟩
    | branchOpen offset =>
      by_cases deep : settings.maxBranchDepth < m.saved.length + 1
      · refine ⟨[], _, m, rfl, by simpa using reads, ?_, ?_⟩
        · rw [run, if_pos deep]
          exact .tooDeep offset rest deep
        · rw [run, if_pos deep]
      · rw [run, if_neg deep]
        obtain ⟨more, left, last, parts, onward, halts, planned⟩ :=
          ih (.branchOpen reads offset (Nat.not_lt.mp deep))
        exact ⟨_ :: more, left, last, congrArg _ parts, by simpa using onward, halts, planned⟩
    | branchClose offset =>
      rcases m with ⟨cursor, saved, plans⟩
      cases saved with
      | nil => exact ⟨[], _, _, rfl, by simpa using reads, .closed offset rest rfl, rfl⟩
      | cons outer saved =>
        rcases ih (.branchClose reads offset) with ⟨more, left, last, parts, onward, halts, planned⟩
        exact ⟨_ :: more, left, last, congrArg _ parts, by simpa using onward, halts, planned⟩

/-- A property of every cursor on a stack and of its level. The lowest cursor has level zero. -/
def AtLevels (P : Nat → Cursor S → Prop) : List (Cursor S) → Prop
  | [] => True
  | cursor :: saved => P saved.length cursor ∧ AtLevels P saved

omit [Scalar S] in
theorem AtLevels.mono {P Q : Nat → Cursor S → Prop} {stack : List (Cursor S)} (all : AtLevels P stack)
    (weaken : ∀ level cursor, level < stack.length → P level cursor → Q level cursor) : AtLevels Q stack := by
  induction stack with
  | nil => trivial
  | cons cursor saved ih =>
    refine ⟨weaken saved.length cursor (by simp) all.1, ih all.2 ?_⟩
    intro level other below
    exact weaken level other (Nat.lt_succ_of_lt below)

theorem getElem?_push_of_some {α : Type} {items : Array α} {i : Nat} {item : α}
    (there : items[i]? = some item) (last : α) : (items.push last)[i]? = some item := by
  have bound := (Array.getElem?_eq_some_iff.mp there).1
  rw [Array.getElem?_push, if_neg (Nat.ne_of_lt bound)]
  exact there

section Invariants

variable {settings : Settings S} {startTime : S} {front : List Token} {m : Machine S}

theorem Reads.balance_eq (reads : Reads settings startTime front m) :
    (m.saved.length : Int) = Token.balance front := by
  induction reads with
  | start => rfl
  | fold _ _ _ _ _ ih => simpa [add, Token.lift] using ih
  | branchOpen _ _ _ ih => simp [Token.lift, ← ih]
  | branchClose _ _ ih => simp [Token.lift, ← ih]

theorem Reads.depth_le (reads : Reads settings startTime front m) :
    m.saved.length ≤ settings.maxBranchDepth := by
  induction reads with
  | start => exact Nat.zero_le _
  | fold _ _ _ _ _ ih => exact ih
  | branchOpen _ _ fits _ => exact fits
  | branchClose _ _ ih => exact Nat.le_of_succ_le ih

theorem Reads.sheltered (reads : Reads settings startTime front m) : Token.Sheltered front := by
  induction reads with
  | start => exact Token.sheltered_nil
  | fold reads _ _ _ _ ih => exact ih.snoc _ (by simpa [Token.lift] using ih.balance_nonneg)
  | branchOpen reads _ _ ih => exact ih.snoc _ (by have := ih.balance_nonneg; simp [Token.lift]; omega)
  | branchClose reads _ ih =>
    have depth := reads.balance_eq
    exact ih.snoc _ (by simp [Token.lift, ← depth])

theorem Reads.size_plans (reads : Reads settings startTime front m) :
    m.plans.size = Token.folds front + 1 := by
  induction reads with
  | start => rfl
  | fold _ _ _ _ _ ih => simp [add, ih, Token.isFold]
  | branchOpen _ _ _ ih => simpa [Token.isFold] using ih
  | branchClose _ _ ih => simpa [Token.isFold] using ih

theorem eq_root_of_start {i : Nat} {plan : Plan S} (there : (start startTime).plans[i]? = some plan) :
    i = 0 ∧ plan = .root startTime := by
  cases i with
  | zero => exact ⟨rfl, (Option.some.inj there).symm⟩
  | succ i => cases there

theorem Reads.attachment_eq_none_iff (reads : Reads settings startTime front m) {i : Nat} {plan : Plan S}
    (there : m.plans[i]? = some plan) : plan.attachment = none ↔ i = 0 := by
  induction reads generalizing i plan with
  | start =>
    obtain ⟨rfl, rfl⟩ := eq_root_of_start there
    simp [Plan.root]
  | fold reads edge face turn offset ih =>
    rw [add, Array.getElem?_push] at there
    split at there
    case isTrue last =>
      have size := reads.size_plans
      cases there
      simp only [Plan.fold, reduceCtorEq, false_iff]
      omega
    case isFalse => exact ih there
  | branchOpen _ _ _ ih => exact ih there
  | branchClose _ _ ih => exact ih there

theorem Reads.exists_attachment (reads : Reads settings startTime front m) {i : Nat} {plan : Plan S}
    (there : m.plans[i]? = some plan) (later : i ≠ 0) : ∃ a, plan.attachment = some a := by
  apply Option.ne_none_iff_exists'.mp
  intro free
  exact later ((reads.attachment_eq_none_iff there).mp free)

theorem Reads.root_eq (reads : Reads settings startTime front m) : m.plans[0]? = some (.root startTime) := by
  induction reads with
  | start => rfl
  | fold reads edge face turn offset ih => exact getElem?_push_of_some ih _
  | branchOpen _ _ _ ih => exact ih
  | branchClose _ _ ih => exact ih

end Invariants

end HingedPanels.Machine
