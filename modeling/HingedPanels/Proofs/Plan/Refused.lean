import HingedPanels.Proofs.Chain.Nesting
import HingedPanels.Proofs.Token.Stuck

namespace HingedPanels

namespace Token

/-- No part of the tokens from their start has a balance above the limit. -/
def Shallow (limit : Nat) (tokens : List Token) : Prop := ∀ count, balance (tokens.take count) ≤ limit

/-- After the tokens of `front`, none of which is a stray brace, a branch opens below the limit. -/
structure TooDeep (limit : Nat) (tokens front : List Token) (offset : Nat) : Prop where
  parts : ∃ rest, tokens = front ++ branchOpen offset :: rest
  sheltered : Sheltered front
  above : limit < balance front + 1

def FirstTooDeep (limit : Nat) (tokens front : List Token) (offset : Nat) : Prop :=
  TooDeep limit tokens front offset ∧
    ∀ front' offset', TooDeep limit tokens front' offset' → front.length ≤ front'.length

variable {limit offset : Nat} {tokens front : List Token}

theorem shallow_nil (limit : Nat) : Shallow limit [] := by
  intro count
  simp

theorem Shallow.snoc (shallow : Shallow limit front) (token : Token)
    (below : balance front + token.lift ≤ limit) : Shallow limit (front ++ [token]) := by
  intro count
  rw [take_snoc]
  split
  · exact shallow count
  · simpa using below

theorem Shallow.length_le (shallow : Shallow limit front) {left : List Token} {front' : List Token}
    (deep : TooDeep limit (front ++ left) front' offset) : front.length ≤ front'.length := by
  obtain ⟨rest, parts⟩ := deep.parts
  by_contra shorter
  have taken : front.take (front'.length + 1) = front' ++ [branchOpen offset] := by
    calc
      front.take (front'.length + 1) = (front ++ left).take (front'.length + 1) :=
        (List.take_append_of_le_length (by omega)).symm
      _ = front' ++ [branchOpen offset] := by
        rw [parts, List.take_length_add_append]
        rfl
  have bound := shallow (front'.length + 1)
  rw [taken] at bound
  have above := deep.above
  simp [lift] at bound
  omega

end Token

open Token (TooDeep FirstTooDeep)

variable {S : Type} [Scalar S]

namespace Machine

variable {settings : Settings S} {startTime : S} {front left : List Token} {m : Machine S} {stop : ChainEnd}

theorem Reads.shallow (reads : Reads settings startTime front m) :
    Token.Shallow settings.maxBranchDepth front := by
  induction reads with
  | start => exact Token.shallow_nil _
  | fold reads _ _ _ _ ih =>
    have depth := reads.balance_eq
    have bound := reads.depth_le
    exact ih.snoc _ (by simp only [Token.lift]; omega)
  | branchOpen reads _ fits ih =>
    have depth := reads.balance_eq
    exact ih.snoc _ (by simp only [Token.lift]; omega)
  | branchClose reads _ ih =>
    have depth := reads.balance_eq
    have bound := reads.depth_le
    exact ih.snoc _ (by simp only [Token.lift]; omega)

theorem Reads.firstTooDeep (reads : Reads settings startTime front m) {offset : Nat} (rest : List Token)
    (deep : settings.maxBranchDepth < m.saved.length + 1) :
    FirstTooDeep settings.maxBranchDepth (front ++ .branchOpen offset :: rest) front offset := by
  have depth := reads.balance_eq
  exact ⟨⟨⟨rest, rfl⟩, reads.sheltered, by omega⟩, fun _ _ deeper => reads.shallow.length_le deeper⟩

theorem Reads.not_tooDeep (reads : Reads settings startTime front m) (halts : Halts settings m left stop)
    (ended : ∀ offset, stop ≠ .tooDeep offset) (front' : List Token) (offset : Nat) :
    ¬ TooDeep settings.maxBranchDepth (front ++ left) front' offset := by
  intro deep
  have beyond := reads.shallow.length_le deep
  obtain ⟨rest', parts⟩ := deep.parts
  cases halts with
  | exhausted =>
    have total := congrArg List.length parts
    simp at total
    omega
  | closed stray rest free =>
    -- The stray brace would have to stand in the sheltered part before the branch.
    rcases List.append_eq_append_iff.mp parts with ⟨between, shape, tail⟩ | ⟨between, shape, tail⟩
    · cases between with
      | nil => cases tail
      | cons first more =>
        cases tail
        have level := deep.sheltered (front.length + 1)
        have depth := reads.balance_eq
        rw [shape, List.take_length_add_append] at level
        simp [Token.lift, ← depth, free] at level
    · have empty : between = [] := by
        apply List.eq_nil_of_length_eq_zero
        have total := congrArg List.length shape
        rw [List.length_append] at total
        omega
      subst empty
      cases tail
  | tooDeep offset' _ _ => exact ended offset' rfl

end Machine

namespace Plan

variable {settings : Settings S} {grammar : String} {tokens : List Token} {startTime : S}

theorem ofGrammar_cases (scanned : Token.ofGrammar grammar = .ok tokens) (settings : Settings S) (startTime : S) :
    (∃ plans, ofGrammar settings grammar startTime = .ok plans ∧
      ∀ front offset, ¬ TooDeep settings.maxBranchDepth tokens front offset) ∨
    ∃ front offset, FirstTooDeep settings.maxBranchDepth tokens front offset ∧
      ofGrammar settings grammar startTime = .error ⟨offset, some '{', .branchTooDeep settings.maxBranchDepth⟩ := by
  obtain ⟨front, left, m, parts, reads, halts, _⟩ :=
    Machine.run_reads (.start : Machine.Reads settings startTime _ _) tokens
  rw [ofGrammar_eq_run scanned]
  generalize Machine.run settings tokens (.start startTime) = run at halts
  obtain ⟨plans, stop⟩ := run
  rw [List.nil_append] at reads
  rw [parts]
  change Machine.Halts settings m left stop at halts
  cases halts with
  | exhausted => exact .inl ⟨plans, rfl, reads.not_tooDeep .exhausted fun _ same => nomatch same⟩
  | closed offset rest free =>
    exact .inl ⟨plans, rfl, reads.not_tooDeep (.closed offset rest free) fun _ same => nomatch same⟩
  | tooDeep offset rest deep => exact .inr ⟨front, offset, reads.firstTooDeep rest deep, rfl⟩

theorem ofGrammar_of_error {error : GrammarError} (refused : Token.ofGrammar grammar = .error error) :
    ofGrammar settings grammar startTime = .error error := by
  rw [ofGrammar, refused]

theorem ofGrammar_lexical_iff {error : GrammarError} :
    Token.ofGrammar grammar = .error error ↔
      ofGrammar settings grammar startTime = .error error ∧ (error.fault = .unknownToken ∨ error.fault = .badTurn) := by
  constructor
  · intro refused
    exact ⟨ofGrammar_of_error refused, Token.fault_of_scan refused⟩
  · rintro ⟨refused, lexical⟩
    cases scanned : Token.ofGrammar grammar with
    | error fault =>
      rw [ofGrammar_of_error scanned] at refused
      cases refused
      rfl
    | ok tokens =>
      rcases ofGrammar_cases scanned settings startTime with ⟨plans, planned, _⟩ | ⟨_, _, _, refused'⟩
      · rw [planned] at refused
        cases refused
      · rw [refused'] at refused
        cases refused
        simp at lexical

theorem offset_eq_of_first {limit offset offset' : Nat} {front front' : List Token}
    (first : FirstTooDeep limit tokens front offset) (first' : FirstTooDeep limit tokens front' offset') :
    offset = offset' := by
  have same : front.length = front'.length := Nat.le_antisymm (first.2 _ _ first'.1) (first'.2 _ _ first.1)
  obtain ⟨rest, parts⟩ := first.1.parts
  obtain ⟨rest', parts'⟩ := first'.1.parts
  rw [parts] at parts'
  cases (List.append_inj parts' same).2
  rfl

theorem ofGrammar_tooDeep_iff {error : GrammarError} :
    (ofGrammar settings grammar startTime = .error error ∧ ∃ limit, error.fault = .branchTooDeep limit) ↔
      ∃ tokens front offset, Token.ofGrammar grammar = .ok tokens ∧
        FirstTooDeep settings.maxBranchDepth tokens front offset ∧
        error = ⟨offset, some '{', .branchTooDeep settings.maxBranchDepth⟩ := by
  cases scanned : Token.ofGrammar grammar with
  | error fault =>
    have lexical := Token.fault_of_scan scanned
    rw [ofGrammar_of_error scanned]
    constructor
    · rintro ⟨same, limit, deep⟩
      cases same
      simp [deep] at lexical
    · rintro ⟨_, _, _, missing, _⟩
      cases missing
  | ok tokens =>
    rcases ofGrammar_cases scanned settings startTime with
      ⟨plans, planned, shallow⟩ | ⟨front, offset, first, refused⟩
    · rw [planned]
      constructor
      · rintro ⟨missing, _⟩
        cases missing
      · rintro ⟨_, front, offset, same, first, _⟩
        cases same
        exact absurd first.1 (shallow front offset)
    · rw [refused]
      constructor
      · rintro ⟨same, _⟩
        cases same
        exact ⟨tokens, front, offset, rfl, first, rfl⟩
      · rintro ⟨_, _, offset', same, first', rfl⟩
        cases same
        rw [offset_eq_of_first first first']
        exact ⟨rfl, _, rfl⟩

theorem exists_ofGrammar_iff :
    (∃ plans, ofGrammar settings grammar startTime = .ok plans) ↔
      ∃ tokens, Token.ofGrammar grammar = .ok tokens ∧
        ∀ front offset, ¬ TooDeep settings.maxBranchDepth tokens front offset := by
  cases scanned : Token.ofGrammar grammar with
  | error fault => simp [ofGrammar_of_error scanned]
  | ok tokens =>
    rcases ofGrammar_cases scanned settings startTime with
      ⟨plans, planned, shallow⟩ | ⟨front, offset, first, refused⟩
    · simpa [planned] using shallow
    · simpa [refused] using ⟨front, offset, first.1⟩

/-- When planning fails. A fault of scanning is handed on, also where it stands behind a stray brace or a
branch too deep; otherwise the first branch too deep is reported, and without one there is a plan. The first
chain aside, chains are nested no deeper than the limit, counting those that the first one leads to. -/
theorem ofGrammar_refused (settings : Settings S) (grammar : String) (startTime : S) :
    (∀ error, Token.ofGrammar grammar = .error error ↔ ofGrammar settings grammar startTime = .error error ∧
      (error.fault = .unknownToken ∨ error.fault = .badTurn)) ∧
    (∀ error, (ofGrammar settings grammar startTime = .error error ∧ ∃ limit, error.fault = .branchTooDeep limit) ↔
      ∃ tokens front offset, Token.ofGrammar grammar = .ok tokens ∧
        FirstTooDeep settings.maxBranchDepth tokens front offset ∧
        error = ⟨offset, some '{', .branchTooDeep settings.maxBranchDepth⟩) ∧
    ((∃ plans, ofGrammar settings grammar startTime = .ok plans) ↔
      ∃ tokens, Token.ofGrammar grammar = .ok tokens ∧
        ∀ front offset, ¬ TooDeep settings.maxBranchDepth tokens front offset) ∧
    ∀ tokens, ChainRun.nesting settings tokens ⟨0, startTime⟩ 0 #[.root startTime] ≤ settings.maxBranchDepth + 1 ∧
      IsGreatest ((⟨0, ⟨0, startTime⟩, 0, #[.root startTime]⟩ : ChainHead S).nestings settings tokens)
        (ChainRun.nesting settings tokens ⟨0, startTime⟩ 0 #[.root startTime]) := by
  refine ⟨fun _ => ofGrammar_lexical_iff, fun _ => ofGrammar_tooDeep_iff, exists_ofGrammar_iff, ?_⟩
  intro tokens
  exact ⟨ChainRun.nesting_le settings tokens ⟨0, startTime⟩ 0 #[.root startTime] (Nat.zero_le _),
    ChainHead.isGreatest_nesting settings tokens ⟨0, ⟨0, startTime⟩, 0, #[.root startTime]⟩⟩

end Plan

end HingedPanels
