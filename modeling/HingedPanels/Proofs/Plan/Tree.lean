import HingedPanels.Proofs.Machine.Simulation
import HingedPanels.Proofs.Token.Scans

namespace HingedPanels

variable {S : Type} [Scalar S]

/-- What the plan of a fold records when `before` are the tokens that precede the fold. -/
structure Plan.Records (plan : Plan S) (settings : Settings S) (before : List Token)
    (edge : Edge) (face : Face) (turn : Turn) (offset : Nat) : Prop where
  attachment_eq : ∃ parent, plan.attachment = some ⟨parent, edge, face, offset⟩ ∧
    Token.LatestPanel before (Token.Reaches before) parent
  target_eq : plan.target = turn.radians
  depth_eq : (plan.depth : Int) = Token.balance before
  depth_le : plan.depth ≤ settings.maxBranchDepth

namespace Machine

variable {settings : Settings S} {startTime : S} {front : List Token} {m : Machine S}

/-- A cursor of a level stands at the latest fold of at most that depth that reaches the end. -/
def AtLatest (front : List Token) (level : Nat) (cursor : Cursor S) : Prop :=
  Token.LatestPanel front (fun j => Token.Reaches front j ∧ Token.balance (front.take j) ≤ level) cursor.panel

omit [Scalar S] in
theorem AtLatest.snoc {level : Nat} {cursor : Cursor S} (latest : AtLatest front level cursor) (token : Token)
    (covered : (level : Int) ≤ Token.balance front + token.lift)
    (aside : token.isFold = true → (level : Int) < Token.balance front) :
    AtLatest (front ++ [token]) level cursor := by
  apply Token.LatestPanel.snoc latest token (fun j here => here.1.lt_length)
  intro j
  rw [Token.reaches_snoc_iff]
  constructor
  · rintro ⟨⟨rfl, fold⟩ | ⟨reaches, _⟩, low⟩
    · rw [List.take_left] at low
      have := aside fold
      omega
    · rw [List.take_append_of_le_length (Nat.le_of_lt reaches.lt_length)] at low
      exact ⟨reaches, low⟩
  · rintro ⟨reaches, low⟩
    rw [List.take_append_of_le_length (Nat.le_of_lt reaches.lt_length)]
    exact ⟨.inr ⟨reaches, low.trans covered⟩, low⟩

omit [Scalar S] in
theorem AtLatest.raise {level : Nat} {cursor : Cursor S} (latest : AtLatest front level cursor)
    (depth : (level : Int) = Token.balance front) (higher : Nat) (above : level ≤ higher) :
    AtLatest front higher cursor := by
  have same (j : Nat) : (Token.Reaches front j ∧ Token.balance (front.take j) ≤ higher) ↔
      (Token.Reaches front j ∧ Token.balance (front.take j) ≤ level) := by
    apply and_congr_right
    intro reaches
    have := reaches.balance_le
    omega
  simpa only [AtLatest, same] using latest

theorem Reads.atLatest (reads : Reads settings startTime front m) :
    AtLevels (AtLatest front) (m.cursor :: m.saved) := by
  induction reads with
  | start =>
    refine ⟨.inr ⟨?_, rfl⟩, trivial⟩
    rintro j ⟨reaches, _⟩
    exact absurd reaches.lt_length (Nat.not_lt_zero j)
  | @fold front m reads edge face turn offset ih =>
    have depth := reads.balance_eq
    refine ⟨.inl ⟨front.length, ⟨?_, ?_⟩, ?_, ?_⟩, ?_⟩
    · exact (Token.reaches_snoc_iff front _ front.length).mpr (.inl ⟨rfl, rfl⟩)
    · rw [List.take_left, ← depth]
      exact Int.le_refl _
    · intro later there
      have := there.1.lt_length
      rw [List.length_append, List.length_singleton] at this
      omega
    · rw [List.take_left]
      exact reads.size_plans
    · apply ih.2.mono
      intro level cursor below latest
      refine latest.snoc _ ?_ fun _ => ?_
      · simp only [Token.lift]
        omega
      · omega
  | @branchOpen front m reads offset fits ih =>
    have depth := reads.balance_eq
    refine ⟨?_, ?_⟩
    · have raised : AtLatest front (m.saved.length + 1) (m.cursor.branch settings) :=
        AtLatest.raise ih.1 depth _ (Nat.le_succ _)
      refine raised.snoc _ ?_ fun fold => absurd fold Bool.false_ne_true
      rw [← depth]
      exact Int.le_refl _
    · apply ih.mono
      intro level cursor below latest
      refine latest.snoc _ ?_ fun fold => absurd fold Bool.false_ne_true
      simp only [List.length_cons, Token.lift] at below ⊢
      omega
  | @branchClose front cursor outer saved plans reads offset ih =>
    have depth := reads.balance_eq
    apply ih.2.mono
    intro level cursor below latest
    refine latest.snoc _ ?_ fun fold => absurd fold Bool.false_ne_true
    simp only [List.length_cons, Token.lift] at below depth ⊢
    omega

theorem Reads.latestPanel (reads : Reads settings startTime front m) :
    Token.LatestPanel front (Token.Reaches front) m.cursor.panel := by
  have depth := reads.balance_eq
  have latest := reads.atLatest.1
  have same (j : Nat) : (Token.Reaches front j ∧ Token.balance (front.take j) ≤ m.saved.length) ↔
      Token.Reaches front j := by
    rw [depth]
    exact and_iff_left_of_imp Token.Reaches.balance_le
  simpa only [AtLatest, same] using latest

theorem Reads.records_fold (reads : Reads settings startTime front m)
    (edge : Edge) (face : Face) (turn : Turn) (offset : Nat) :
    (Plan.fold settings m.cursor m.saved.length edge face turn offset).Records
      settings front edge face turn offset where
  attachment_eq := ⟨m.cursor.panel, rfl, reads.latestPanel⟩
  target_eq := rfl
  depth_eq := reads.balance_eq
  depth_le := reads.depth_le

theorem Reads.records (reads : Reads settings startTime front m) {before after : List Token}
    {edge : Edge} {face : Face} {turn : Turn} {offset : Nat}
    (parts : front = before ++ .fold edge face turn offset :: after) :
    ∃ plan, m.plans[Token.folds before + 1]? = some plan ∧
      plan.Records settings before edge face turn offset := by
  induction reads generalizing after with
  | start => simp at parts
  | fold reads edge' face' turn' offset' ih =>
    rcases Token.snoc_eq_append_cons parts with ⟨rest, inside⟩ | ⟨rfl, same⟩
    · rcases ih inside with ⟨plan, there, records⟩
      exact ⟨plan, getElem?_push_of_some there _, records⟩
    · cases same
      rw [← reads.size_plans]
      exact ⟨_, Array.getElem?_push_size, reads.records_fold edge face turn offset⟩
  | branchOpen _ _ _ ih | branchClose _ _ ih =>
    rcases Token.snoc_eq_append_cons parts with ⟨rest, inside⟩ | ⟨_, same⟩
    · exact ih inside
    · cases same

theorem Reads.exists_fold (reads : Reads settings startTime front m) {i : Nat} {plan : Plan S} {a : Attachment}
    (there : m.plans[i]? = some plan) (hangs : plan.attachment = some a) :
    ∃ before turn after, front = before ++ .fold a.edge a.face turn a.offset :: after ∧
      i = Token.folds before + 1 ∧ plan.Records settings before a.edge a.face turn a.offset := by
  have bound := (Array.getElem?_eq_some_iff.mp there).1
  have size := reads.size_plans
  have later : i ≠ 0 := by
    intro first
    have free := (reads.attachment_eq_none_iff there).mpr first
    rw [hangs] at free
    cases free
  have counted : i - 1 < Token.folds front := by omega
  obtain ⟨before, edge, face, turn, offset, after, parts, number⟩ := Token.exists_fold_of_lt_folds counted
  rcases reads.records parts with ⟨plan', there', records⟩
  have numbered : i = Token.folds before + 1 := by omega
  rw [← numbered, there] at there'
  cases there'
  rcases records.attachment_eq with ⟨parent, hangs', _⟩
  rw [hangs] at hangs'
  cases hangs'
  exact ⟨before, turn, after, parts, numbered, records⟩

theorem Reads.parent_lt (reads : Reads settings startTime front m) {i : Nat} {plan : Plan S} {a : Attachment}
    (there : m.plans[i]? = some plan) (hangs : plan.attachment = some a) : a.parent < i := by
  rcases reads.exists_fold there hangs with ⟨before, turn, after, _, rfl, records⟩
  rcases records.attachment_eq with ⟨parent, hangs', latest⟩
  have same : a.parent = parent := congrArg Attachment.parent (Option.some.inj (hangs.symm.trans hangs'))
  rw [same]
  exact Nat.lt_succ_of_le latest.le_folds

end Machine

variable {settings : Settings S} {grammar : String} {startTime : S} {plans : Array (Plan S)}

/-- The tree of a grammar: one panel for every fold of the live part, in their order, each at the byte at
which its fold stands and on a panel that comes before it. -/
theorem Plan.ofGrammar_tree (planned : Plan.ofGrammar settings grammar startTime = .ok plans) :
    ∃ tokens front, Token.ofGrammar grammar = .ok tokens ∧ Token.Live tokens front ∧
      plans.size = Token.folds front + 1 ∧
      (∀ i plan, plans[i]? = some plan → (plan.attachment = none ↔ i = 0)) ∧
      (∀ before edge face turn offset after, front = before ++ .fold edge face turn offset :: after →
        ∃ plan, plans[Token.folds before + 1]? = some plan ∧
          plan.Records settings before edge face turn offset ∧
          ∃ left right, grammar.toList = left ++ Token.letter edge face :: turn.digit :: right ∧
            (String.ofList left).utf8ByteSize = offset) ∧
      (∀ i, i ≠ 0 → i < plans.size → ∃ before edge face turn offset after,
        front = before ++ .fold edge face turn offset :: after ∧ i = Token.folds before + 1) ∧
      (∀ (i : Nat) (plan : Plan S) (a : Attachment), plans[i]? = some plan → plan.attachment = some a →
        a.parent < i) ∧
      ∀ (i j : Nat) (plan other : Plan S) (a b : Attachment), i < j → plans[i]? = some plan →
        plans[j]? = some other → plan.attachment = some a → other.attachment = some b →
        a.offset < b.offset := by
  obtain ⟨tokens, front, m, scanned, live, reads, rfl⟩ := ofGrammar_reads planned
  rcases live.exists_append with ⟨rest, whole⟩
  refine ⟨tokens, front, scanned, live, reads.size_plans, fun i plan => reads.attachment_eq_none_iff, ?_, ?_, ?_, ?_⟩
  · intro before edge face turn offset after parts
    rcases reads.records parts with ⟨plan, there, records⟩
    have member : .fold edge face turn offset ∈ tokens := by
      rw [whole, parts]
      simp
    exact ⟨plan, there, records, Token.stands_of_ofGrammar scanned member⟩
  · intro i later bound
    have size := reads.size_plans
    have counted : i - 1 < Token.folds front := by omega
    obtain ⟨before, edge, face, turn, offset, after, parts, number⟩ := Token.exists_fold_of_lt_folds counted
    exact ⟨before, edge, face, turn, offset, after, parts, by omega⟩
  · intro i plan a there hangs
    exact reads.parent_lt there hangs
  · intro i j plan other a b earlier there there' hangs hangs'
    rcases reads.exists_fold there hangs with ⟨before, turn, after, parts, rfl, _⟩
    rcases reads.exists_fold there' hangs' with ⟨before', turn', after', parts', rfl, _⟩
    have member := Token.mem_of_folds_lt (parts.symm.trans parts') (Nat.lt_of_succ_lt_succ earlier)
    have ordered := (Token.scans_of_scan scanned).pairwise_offset
    rw [whole, parts', List.append_assoc] at ordered
    exact (List.pairwise_append.mp ordered).2.2 _ member _ (List.mem_append_left _ List.mem_cons_self)

theorem Token.ofGrammar_stray : Token.ofGrammar "{A0{b1}C2}\x7dD0" =
    .ok [.branchOpen 0, .fold .a .front .quarter 1, .branchOpen 3, .fold .b .back .half 4, .branchClose 6,
      .fold .c .front .threeQuarter 7, .branchClose 9, .branchClose 10, .fold .d .front .quarter 11] := by
  cbv

theorem Plan.ofGrammar_tree_stray :
    ∃ plans, Plan.ofGrammar .standard "{A0{b1}C2}\x7dD0" (0 : Float32) = .ok plans ∧ plans.size = 4 ∧
      ∀ (i : Nat) (plan : Plan Float32) (a : Attachment), plans[i]? = some plan → plan.attachment = some a →
        a.parent < i := by
  have planned := (Plan.ofGrammar_eq_run Token.ofGrammar_stray .standard (0 : Float32)).trans rfl
  refine ⟨_, planned, rfl, ?_⟩
  obtain ⟨_, _, _, _, _, _, _, _, parents, _⟩ := Plan.ofGrammar_tree planned
  exact parents

end HingedPanels
