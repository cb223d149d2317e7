import HingedPanels.Proofs.Machine.Reads
import HingedPanels.Proofs.Token.Language

/-!
What a stretch of tokens does to the machine. If its braces are balanced, it adds panels at the places of
its own tokens, and the cursors that waited before it wait after it. What the machine then does with the
tokens that follow does not depend on the panels added, except that numbers count on from there.
-/

namespace HingedPanels

/-- The number of a panel once `count` others have been put in from number `start` on. -/
def raise (start count number : Nat) : Nat := if number < start then number else number + count

variable {S : Type}

def Cursor.raised (start count : Nat) (cursor : Cursor S) : Cursor S := ⟨raise start count cursor.panel, cursor.time⟩

/-- The plan of a token that stands `width` bytes further on, behind panels that have been put in. -/
def Plan.raised (start count width : Nat) (plan : Plan S) : Plan S :=
  ⟨plan.attachment.map fun a => ⟨raise start count a.parent, a.edge, a.face, a.offset + width⟩,
    plan.target, plan.window, plan.depth⟩

@[simp] theorem Plan.window_raised (start count width : Nat) (plan : Plan S) :
    (plan.raised start count width).window = plan.window := rfl

def ChainEnd.movedBy (width : Nat) : ChainEnd → ChainEnd
  | exhausted => exhausted
  | closed offset rest => closed (offset + width) (rest.map (Token.movedBy width))
  | tooDeep offset => tooDeep (offset + width)

def Plan.StandsAt (plan : Plan S) (tokens : List Token) : Prop :=
  ∃ a, plan.attachment = some a ∧ ∃ token ∈ tokens, token.offset = a.offset

theorem Plan.StandsAt.mono {plan : Plan S} {tokens more : List Token} (stands : plan.StandsAt tokens)
    (included : tokens ⊆ more) : plan.StandsAt more := by
  rcases stands with ⟨a, hangs, token, member, place⟩
  exact ⟨a, hangs, token, included member, place⟩

variable [Scalar S]

theorem Plan.standsAt_fold (settings : Settings S) (cursor : Cursor S) (depth : Nat)
    (edge : Edge) (face : Face) (turn : Turn) (offset : Nat) :
    (Plan.fold settings cursor depth edge face turn offset).StandsAt [.fold edge face turn offset] :=
  ⟨_, rfl, _, List.mem_singleton_self _, rfl⟩

theorem Plan.fold_raised (settings : Settings S) (cursor : Cursor S) (depth start count width : Nat)
    (edge : Edge) (face : Face) (turn : Turn) (offset : Nat) :
    Plan.fold settings (cursor.raised start count) depth edge face turn (offset + width) =
      (Plan.fold settings cursor depth edge face turn offset).raised start count width := rfl

namespace Machine

variable {settings : Settings S} {startTime : S} {front : List Token} {m : Machine S}

theorem run_of_reads (reads : Reads settings startTime front m) (left : List Token) :
    run settings (front ++ left) (.start startTime) = run settings left m := by
  induction reads generalizing left with
  | start => rfl
  | fold _ _ _ _ _ ih =>
    rw [List.append_assoc, ih]
    rfl
  | branchOpen _ offset fits ih =>
    rw [List.append_assoc, ih, List.singleton_append, run, if_neg (Nat.not_lt.mpr fits)]
    rfl
  | branchClose _ _ ih =>
    rw [List.append_assoc, ih]
    rfl

theorem run_fold (settings : Settings S) (rest : List Token) (cursor : Cursor S) (saved : List (Cursor S))
    (planned : List (Plan S)) (edge : Edge) (face : Face) (turn : Turn) (offset : Nat) :
    run settings (.fold edge face turn offset :: rest) ⟨cursor, saved, planned.toArray⟩ =
      let plan := Plan.fold settings cursor saved.length edge face turn offset
      run settings rest ⟨⟨planned.length, plan.window.endTime⟩, saved, (planned ++ [plan]).toArray⟩ := by
  simp [run, add]
  rfl

section Enclosed

variable {tokens rest : List Token} {level above : Nat} {saved : List (Cursor S)} {planned fresh : List (Plan S)}
  {outcome : ChainRun S}

/-- The tokens, read with `level` cursors above those of `saved`, end in a branch that is too deep, or the
machine is left with the cursors of `saved`, those that the balance of the tokens puts on top of them, and
panels from the tokens. -/
def Encloses (settings : Settings S) (tokens rest : List Token) (level : Nat) (saved : List (Cursor S))
    (planned : List (Plan S)) (outcome : ChainRun S) : Prop :=
  (∃ offset, outcome.stop = .tooDeep offset) ∨
    ∃ last inner added, (inner.length : Int) = level + Token.balance tokens ∧
      (∀ plan ∈ added, plan.StandsAt tokens) ∧
      outcome = run settings rest ⟨last, inner ++ saved, (planned ++ added).toArray⟩

theorem Encloses.cons {token : Token} (encloses : Encloses settings tokens rest above saved (planned ++ fresh) outcome)
    (lifted : (above : Int) = level + token.lift) (own : ∀ plan ∈ fresh, plan.StandsAt [token]) :
    Encloses settings (token :: tokens) rest level saved planned outcome := by
  rcases encloses with deep | ⟨last, inner, added, height, stands, same⟩
  · exact .inl deep
  · refine .inr ⟨last, inner, fresh ++ added, ?_, ?_, ?_⟩
    · rw [Token.balance_cons, height, lifted, Int.add_assoc]
    · intro plan member
      rcases List.mem_append.mp member with member | member
      · exact (own plan member).mono (by simp)
      · exact (stands plan member).mono (List.subset_cons_self token tokens)
    · rw [same, List.append_assoc]

theorem Encloses.cons_brace {token : Token} (encloses : Encloses settings tokens rest above saved planned outcome)
    (lifted : (above : Int) = level + token.lift) :
    Encloses settings (token :: tokens) rest level saved planned outcome := by
  rw [← List.append_nil planned] at encloses
  exact encloses.cons lifted (by simp)

theorem run_encloses (settings : Settings S) (tokens rest : List Token) (cursor : Cursor S)
    (inner saved : List (Cursor S)) (planned : List (Plan S))
    (sheltered : ∀ count, 0 ≤ inner.length + Token.balance (tokens.take count)) :
    Encloses settings tokens rest inner.length saved planned
      (run settings (tokens ++ rest) ⟨cursor, inner ++ saved, planned.toArray⟩) := by
  induction tokens generalizing cursor inner planned with
  | nil => exact .inr ⟨cursor, inner, [], by simp, by simp, by simp⟩
  | cons token tokens ih =>
    -- The cursors that wait after the first token shelter the tokens that follow.
    have onward {level : Nat} (lifted : (level : Int) = inner.length + token.lift) (count : Nat) :
        0 ≤ level + Token.balance (tokens.take count) := by
      have above := sheltered (count + 1)
      rw [List.take_succ_cons, Token.balance_cons] at above
      omega
    cases token with
    | fold edge face turn offset =>
      rw [List.cons_append, run_fold]
      have lifted : (inner.length : Int) = inner.length + (Token.fold edge face turn offset).lift := by simp [Token.lift]
      apply Encloses.cons (ih _ inner _ (onward lifted)) lifted
      intro plan member
      rw [List.mem_singleton.mp member]
      exact Plan.standsAt_fold settings cursor _ edge face turn offset
    | branchOpen offset =>
      rw [List.cons_append, run]
      split
      case isTrue => exact .inl ⟨offset, rfl⟩
      case isFalse =>
        have lifted : ((cursor :: inner).length : Int) = inner.length + (Token.branchOpen offset).lift := by
          simp [Token.lift]
        exact (ih (cursor.branch settings) (cursor :: inner) planned (onward lifted)).cons_brace lifted
    | branchClose offset =>
      cases inner with
      | nil =>
        have stray := sheltered 1
        simp [Token.lift] at stray
      | cons outer inner =>
        have lifted : (inner.length : Int) = (outer :: inner).length + (Token.branchClose offset).lift := by
          simp [Token.lift]
        exact (ih outer inner planned (onward lifted)).cons_brace lifted

end Enclosed

theorem run_branch (settings : Settings S) {tokens : List Token} (sheltered : Token.Sheltered tokens)
    (level : Token.balance tokens = 0) (rest : List Token) (opened closed : Nat) (cursor : Cursor S)
    (saved : List (Cursor S)) (planned : List (Plan S)) :
    (∃ offset, (run settings (.branchOpen opened :: (tokens ++ .branchClose closed :: rest))
      ⟨cursor, saved, planned.toArray⟩).stop = .tooDeep offset) ∨
    ∃ added, (∀ plan ∈ added, plan.StandsAt tokens) ∧
      run settings (.branchOpen opened :: (tokens ++ .branchClose closed :: rest)) ⟨cursor, saved, planned.toArray⟩ =
        run settings rest ⟨cursor, saved, (planned ++ added).toArray⟩ := by
  rw [run]
  split
  case isTrue => exact .inl ⟨opened, rfl⟩
  case isFalse =>
    have inside := run_encloses settings tokens (.branchClose closed :: rest) (cursor.branch settings) []
      (cursor :: saved) planned (by simpa [Token.Sheltered] using sheltered)
    rcases inside with deep | ⟨last, inner, added, height, stands, same⟩
    · exact .inl deep
    · have empty : inner = [] := by
        rw [level] at height
        exact List.eq_nil_of_length_eq_zero (by simpa using height)
      subst empty
      exact .inr ⟨added, stands, same⟩

section Raised

variable (settings : Settings S) (base added : List (Plan S)) (width : Nat)

/-- A run that goes on behind panels put in, on tokens further on, does what it would have done without. -/
theorem run_raised (tokens : List Token) (cursor : Cursor S) (saved : List (Cursor S)) (tail : List (Plan S)) :
    ∃ more stop, run settings tokens ⟨cursor, saved, (base ++ tail).toArray⟩ = ⟨(base ++ (tail ++ more)).toArray, stop⟩ ∧
      (∀ plan ∈ more, plan.StandsAt tokens) ∧
      run settings (tokens.map (Token.movedBy width))
        ⟨cursor.raised base.length added.length, saved.map (Cursor.raised base.length added.length),
          (base ++ added ++ tail.map (Plan.raised base.length added.length width)).toArray⟩ =
        ⟨(base ++ added ++ (tail ++ more).map (Plan.raised base.length added.length width)).toArray,
          stop.movedBy width⟩ := by
  induction tokens generalizing cursor saved tail with
  | nil => exact ⟨[], .exhausted, by simp [run], by simp, by simp [run, ChainEnd.movedBy]⟩
  | cons token tokens ih =>
    have included : tokens ⊆ token :: tokens := List.subset_cons_self token tokens
    cases token with
    | fold edge face turn offset =>
      let plan := Plan.fold settings cursor saved.length edge face turn offset
      obtain ⟨more, stop, short, stands, long⟩ := ih ⟨(base ++ tail).length, plan.window.endTime⟩ saved (tail ++ [plan])
      refine ⟨plan :: more, stop, ?_, ?_, ?_⟩
      · rw [run_fold]
        simpa using short
      · intro other member
        rcases List.mem_cons.mp member with rfl | member
        · exact (Plan.standsAt_fold settings cursor _ edge face turn offset).mono (by simp)
        · exact (stands other member).mono included
      · have number : raise base.length added.length (base ++ tail).length =
            (base ++ added ++ tail.map (Plan.raised base.length added.length width)).length := by
          simp [raise]
          omega
        rw [List.map_cons, Token.movedBy_fold, run_fold, List.length_map, Plan.fold_raised, ← number]
        simpa [Cursor.raised, plan] using long
    | branchOpen offset =>
      rw [List.map_cons, Token.movedBy_branchOpen, run, run]
      simp only [List.length_map]
      split
      case isTrue => exact ⟨[], .tooDeep offset, by simp, by simp, by simp [ChainEnd.movedBy]⟩
      case isFalse =>
        obtain ⟨more, stop, short, stands, long⟩ := ih (cursor.branch settings) (cursor :: saved) tail
        exact ⟨more, stop, short, fun plan member => (stands plan member).mono included, long⟩
    | branchClose offset =>
      cases saved with
      | nil =>
        exact ⟨[], .closed offset tokens, by simp [run], by simp, by simp [run, ChainEnd.movedBy]⟩
      | cons outer saved =>
        obtain ⟨more, stop, short, stands, long⟩ := ih outer saved tail
        exact ⟨more, stop, short, fun plan member => (stands plan member).mono included, long⟩

end Raised

end Machine

end HingedPanels
