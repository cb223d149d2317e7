import HingedPanels.Proofs.Machine.Around

/-!
Text added at the end. The machine has planned what stands before by the time it gets there, so added text
adds panels at most. After a stray brace it adds none, and closing braces for the branches that are open
add none either.
-/

namespace HingedPanels

namespace Token

theorem exists_append_of_ofGrammar {before after : String} {front whole : List Token}
    (scanned : ofGrammar before = .ok front) (read : ofGrammar (before ++ after) = .ok whole) :
    ∃ back, whole = front ++ back := by
  rcases scan_eq_ok_iff.mp scanned with ⟨items, text, rfl⟩
  rw [ofGrammar, String.toList_append, text, scan_append] at read
  cases later : scan (0 + String.utf8Len (items.flatMap Item.text)) after.toList with
  | error fault =>
    rw [later] at read
    cases read
  | ok back =>
    rw [later] at read
    cases read
    exact ⟨back, rfl⟩

def closings (count : Nat) : String := String.ofList (List.replicate count '}')

def isClose : Token → Bool
  | branchClose _ => true
  | fold _ _ _ _ | branchOpen _ => false

theorem isClose_movedBy (distance : Nat) (t : Token) : (t.movedBy distance).isClose = t.isClose := by
  cases t <;> rfl

theorem scan_closings (count start : Nat) : ∃ tokens, scan start (List.replicate count '}') = .ok tokens ∧
    tokens.length = count ∧ ∀ t ∈ tokens, t.isClose = true := by
  induction count generalizing start with
  | zero => exact ⟨[], rfl, rfl, by simp⟩
  | succ count ih =>
    rcases ih (start + String.utf8Len (branchClose start).text) with ⟨tokens, scanned, length, close⟩
    refine ⟨branchClose start :: tokens, ?_, by simp [length], ?_⟩
    · have read := scan_token start (branchClose start) (List.replicate count '}')
      rw [scanned] at read
      exact read
    · intro t member
      rcases List.mem_cons.mp member with rfl | member
      · rfl
      · exact close t member

theorem ofGrammar_closings {grammar : String} {tokens : List Token} (scanned : ofGrammar grammar = .ok tokens)
    (count : Nat) : ∃ back, ofGrammar (grammar ++ closings count) = .ok (tokens ++ back) ∧
      back.length = count ∧ ∀ t ∈ back, t.isClose = true := by
  rcases scan_closings count 0 with ⟨back, read, length, close⟩
  have scanned' : ofGrammar (closings count) = .ok back := by rwa [ofGrammar, closings, String.toList_ofList]
  refine ⟨_, ofGrammar_append scanned scanned', by rw [List.length_map, length], ?_⟩
  intro t member
  rcases List.mem_map.mp member with ⟨origin, inside, rfl⟩
  rw [isClose_movedBy, close origin inside]

end Token

variable {S : Type} [Scalar S]

namespace Machine

theorem plans_run (settings : Settings S) (tokens : List Token) (m : Machine S) :
    m.plans.toList <+: (run settings tokens m).plans.toList := by
  induction tokens generalizing m with
  | nil => exact List.prefix_rfl
  | cons token rest ih =>
    cases token with
    | fold edge face turn offset =>
      have grown := ih (m.add (Plan.fold settings m.cursor m.saved.length edge face turn offset))
      have kept : m.plans.toList <+: (m.add (Plan.fold settings m.cursor m.saved.length edge face turn offset)).plans.toList := by
        simp [add]
      exact kept.trans grown
    | branchOpen offset =>
      rw [run]
      split
      · exact List.prefix_rfl
      · exact ih ⟨m.cursor.branch settings, m.cursor :: m.saved, m.plans⟩
    | branchClose offset =>
      rcases m with ⟨cursor, saved, plans⟩
      cases saved with
      | nil => exact List.prefix_rfl
      | cons outer saved => exact ih ⟨outer, saved, plans⟩

/-- A machine reads tokens to their end, or comes to its result before and does not look at what follows. -/
theorem reads_or_ends (settings : Settings S) (startTime : S) (tokens : List Token) :
    (∃ m, Reads settings startTime tokens m) ∨
      ∀ more, (run settings (tokens ++ more) (.start startTime)).result settings =
        (run settings tokens (.start startTime)).result settings := by
  rcases run_reads (.start : Reads settings startTime _ _) tokens with ⟨part, left, m, parts, reads, halts, _⟩
  rw [List.nil_append] at reads
  cases left with
  | nil =>
    rw [List.append_nil] at parts
    exact .inl ⟨m, parts ▸ reads⟩
  | cons token left =>
    generalize (run settings tokens (.start startTime)).stop = stop at halts
    have ends (more : List Token) : (run settings (tokens ++ more) (.start startTime)).result settings =
        ChainRun.result settings ⟨m.plans, stop⟩ := by
      rw [parts, List.append_assoc, run_of_reads reads]
      exact halts.result_run more
    have alone := ends []
    rw [List.append_nil] at alone
    exact .inr fun more => (ends more).trans alone.symm

theorem run_tokens {settings : Settings S} {startTime : S} {tokens : List Token} {m : Machine S}
    (reads : Reads settings startTime tokens m) : run settings tokens (.start startTime) = ⟨m.plans, .exhausted⟩ := by
  have whole := run_of_reads reads []
  rwa [List.append_nil] at whole

theorem run_closings (settings : Settings S) {tokens : List Token} (close : ∀ t ∈ tokens, t.isClose = true)
    (m : Machine S) (enough : tokens.length ≤ m.saved.length) : run settings tokens m = ⟨m.plans, .exhausted⟩ := by
  induction tokens generalizing m with
  | nil => rfl
  | cons token rest ih =>
    have onward : ∀ t ∈ rest, t.isClose = true := fun t member => close t (List.mem_cons_of_mem token member)
    have first := close token List.mem_cons_self
    cases token with
    | fold | branchOpen => cases first
    | branchClose offset =>
      rcases m with ⟨cursor, saved, plans⟩
      cases saved with
      | nil => cases enough
      | cons outer saved => exact ih onward ⟨outer, saved, plans⟩ (Nat.le_of_succ_le_succ enough)

variable {settings : Settings S} {startTime : S} {front back : List Token}

theorem result_of_append {longer : Array (Plan S)}
    (planned : (run settings (front ++ back) (.start startTime)).result settings = .ok longer) :
    ∃ plans, (run settings front (.start startTime)).result settings = .ok plans ∧
      plans.toList <+: longer.toList ∧ (¬ Token.Sheltered front → plans = longer) := by
  rcases reads_or_ends settings startTime front with ⟨m, reads⟩ | ends
  · rw [run_of_reads reads] at planned
    rcases ChainRun.result_eq_ok_iff.mp planned with ⟨whole, _⟩
    refine ⟨m.plans, by rw [run_tokens reads]; rfl, ?_, fun stray => absurd reads.sheltered stray⟩
    rw [← whole]
    exact plans_run settings back m
  · rw [ends] at planned
    exact ⟨longer, planned, List.prefix_rfl, fun _ => rfl⟩

theorem result_closings (level : Token.balance front = back.length) (close : ∀ t ∈ back, t.isClose = true) :
    (run settings (front ++ back) (.start startTime)).result settings =
      (run settings front (.start startTime)).result settings := by
  rcases reads_or_ends settings startTime front with ⟨m, reads⟩ | ends
  · have depth : m.saved.length = back.length := Int.ofNat.inj (reads.balance_eq.trans level)
    rw [run_of_reads reads, run_closings settings close m depth.ge, run_tokens reads]
  · exact ends back

end Machine

namespace Plan

variable {before after : String} {front : List Token} {settings : Settings S} {startTime : S}

theorem ofGrammar_of_append {longer : Array (Plan S)} (scanned : Token.ofGrammar before = .ok front)
    (planned : ofGrammar settings (before ++ after) startTime = .ok longer) :
    ∃ plans, ofGrammar settings before startTime = .ok plans ∧ plans.toList <+: longer.toList ∧
      (¬ Token.Sheltered front → plans = longer) := by
  rcases ofGrammar_reads planned with ⟨whole, _, _, read, _⟩
  rcases Token.exists_append_of_ofGrammar scanned read with ⟨back, rfl⟩
  rw [ofGrammar_eq_run read] at planned
  rw [ofGrammar_eq_run scanned]
  exact Machine.result_of_append planned

theorem ofGrammar_closings (scanned : Token.ofGrammar before = .ok front) (settings : Settings S) (startTime : S)
    {count : Nat} (level : Token.balance front = count) :
    ofGrammar settings (before ++ Token.closings count) startTime = ofGrammar settings before startTime := by
  rcases Token.ofGrammar_closings scanned count with ⟨back, read, length, close⟩
  rw [ofGrammar_eq_run read, ofGrammar_eq_run scanned]
  exact Machine.result_closings (by rw [level, length]) close

end Plan

end HingedPanels
