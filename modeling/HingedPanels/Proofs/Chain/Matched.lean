import HingedPanels.Proofs.Chain.Follows

namespace HingedPanels

namespace Token

theorem Sheltered.enclosed {inner : List Token} (sheltered : Sheltered inner) (opened closed : Nat) :
    Sheltered (branchOpen opened :: inner ++ [branchClose closed]) := by
  have opening : Sheltered (branchOpen opened :: inner) := sheltered.cons (by simp [lift])
  have nonneg := sheltered.balance_nonneg
  refine opening.snoc _ ?_
  simp [lift]
  omega

/-- The positions of the tokens with which, from `start` on, one more brace has closed than opened. -/
def surplus (tokens : List Token) (start : Nat) : Set Nat :=
  {last | last < tokens.length ∧ balance (tokens.extract start (last + 1)) = -1}

variable {tokens front rest : List Token} {start offset : Nat}

theorem mem_surplus_iff {last : Nat} : last ∈ surplus tokens start ↔
    last < tokens.length ∧ balance ((tokens.drop start).take (last + 1 - start)) = -1 :=
  Iff.rfl

theorem surplus_eq_empty (sheltered : Sheltered (tokens.drop start)) : surplus tokens start = ∅ := by
  apply Set.eq_empty_of_forall_notMem
  intro last below
  have nonneg := sheltered (last + 1 - start)
  rw [mem_surplus_iff] at below
  omega

section Parts

variable (parts : tokens.drop start = front ++ branchClose offset :: rest)

include parts

theorem length_of_parts : tokens.length = start + front.length + 1 + rest.length := by
  have lengths := congrArg List.length parts
  simp only [List.length_drop, List.length_append, List.length_cons] at lengths
  omega

theorem extract_of_parts : tokens.extract start (start + front.length + 1) = front ++ [branchClose offset] := by
  have width : start + front.length + 1 - start = front.length + 1 := by omega
  rw [List.extract, parts, width, List.take_length_add_append]
  rfl

theorem isLeast_surplus (sheltered : Sheltered front) (level : balance front = 0) :
    IsLeast (surplus tokens start) (start + front.length) := by
  constructor
  · have within : start + front.length < tokens.length := by
      rw [length_of_parts parts]
      omega
    refine ⟨within, ?_⟩
    rw [extract_of_parts parts]
    simp [level, lift]
  · intro last below
    rw [mem_surplus_iff, parts] at below
    by_contra earlier
    rw [List.take_append_of_le_length (by omega)] at below
    have nonneg := sheltered (last + 1 - start)
    omega

end Parts

end Token

open Token (Sheltered balance surplus isFold)

inductive ChainEnd.Behind (tokens front : List Token) : ChainEnd → Prop
  | exhausted (whole : tokens = front) : Behind tokens front .exhausted
  | closed {offset rest} (parts : tokens = front ++ .branchClose offset :: rest) (level : balance front = 0) :
      Behind tokens front (.closed offset rest)
  | tooDeep {offset rest} (parts : tokens = front ++ .branchOpen offset :: rest) :
      Behind tokens front (.tooDeep offset)

theorem ChainEnd.Behind.append {tokens front : List Token} {stop : ChainEnd} (behind : Behind tokens front stop)
    (before : List Token) (level : ∀ offset rest, stop = .closed offset rest → balance before = 0) :
    Behind (before ++ tokens) (before ++ front) stop := by
  cases behind with
  | exhausted whole => exact .exhausted (congrArg _ whole)
  | @closed offset rest parts inner =>
    exact .closed (by rw [parts, List.append_assoc]) (by simp [level offset rest rfl, inner])
  | tooDeep parts => exact .tooDeep (by rw [parts, List.append_assoc])

variable {S : Type} [Scalar S]

inductive Plan.MadeOf (settings : Settings S) : Token → Plan S → Prop
  | fold (cursor : Cursor S) (depth : Nat) (edge : Edge) (face : Face) (turn : Turn) (offset : Nat) :
      MadeOf settings (.fold edge face turn offset) (.fold settings cursor depth edge face turn offset)

/-- The plans go on from the old ones with one plan for every fold of the tokens, in their order. -/
def Plan.Extends (settings : Settings S) (tokens : List Token) (old plans : Array (Plan S)) : Prop :=
  ∃ added, plans.toList = old.toList ++ added ∧ List.Forall₂ (MadeOf settings) (tokens.filter isFold) added

section Extends

variable {settings : Settings S} {old plans later : Array (Plan S)} {front back : List Token}

theorem Plan.extends_nil (settings : Settings S) (plans : Array (Plan S)) : Plan.Extends settings [] plans plans :=
  ⟨[], by simp, .nil⟩

theorem Plan.Extends.append (grown : Plan.Extends settings front old plans)
    (grown' : Plan.Extends settings back plans later) : Plan.Extends settings (front ++ back) old later := by
  rcases grown with ⟨added, same, made⟩
  rcases grown' with ⟨added', same', made'⟩
  refine ⟨added ++ added', by rw [same', same, List.append_assoc], ?_⟩
  rw [List.filter_append]
  exact List.rel_append made made'

theorem Plan.extends_brace {token : Token} (brace : token.isFold = false) (plans : Array (Plan S)) :
    Plan.Extends settings [token] plans plans :=
  ⟨[], by simp, by simp [brace]⟩

theorem Plan.extends_fold (settings : Settings S) (cursor : Cursor S) (depth : Nat) (edge : Edge) (face : Face)
    (turn : Turn) (offset : Nat) (plans : Array (Plan S)) :
    Plan.Extends settings [.fold edge face turn offset] plans
      (plans.push (.fold settings cursor depth edge face turn offset)) :=
  ⟨[.fold settings cursor depth edge face turn offset], by simp, .cons (.fold cursor depth edge face turn offset) .nil⟩

end Extends

variable {settings : Settings S} {tokens : List Token} {head : ChainHead S} {run : ChainRun S}

theorem Follows.drop_past {branch : ChainRun S} {inner rest : List Token} {offset closing : Nat}
    (here : tokens[head.position]? = some (.branchOpen offset))
    (inside : Follows settings tokens (head.branch settings) branch) (closed : branch.stop = .closed closing rest)
    (parts : tokens.drop (head.branch settings).position = inner ++ .branchClose closing :: rest) :
    tokens.drop head.position = .branchOpen offset :: inner ++ [.branchClose closing] ++
      tokens.drop (head.past tokens branch).position := by
  have left : rest = tokens.drop (head.past tokens branch).position := by
    calc
      rest = branch.stop.rest := by rw [closed]; rfl
      _ = tokens.drop (head.past tokens branch).position := inside.rest_eq_drop
  have parts : tokens.drop (head.position + 1) = inner ++ .branchClose closing :: rest := parts
  rw [Token.drop_of_getElem? here, parts, ← left]
  simp

theorem Follows.reads (follows : Follows settings tokens head run) :
    ∃ front, Sheltered front ∧ run.stop.Behind (tokens.drop head.position) front ∧
      Plan.Extends settings front head.plans run.plans := by
  induction follows with
  | exhausted ends =>
    refine ⟨[], Token.sheltered_nil, .exhausted ?_, Plan.extends_nil settings _⟩
    exact List.drop_eq_nil_of_le (List.getElem?_eq_none_iff.mp ends)
  | branchClose here =>
    exact ⟨[], Token.sheltered_nil, .closed (Token.drop_of_getElem? here) rfl, Plan.extends_nil settings _⟩
  | tooDeep here deep =>
    exact ⟨[], Token.sheltered_nil, .tooDeep (Token.drop_of_getElem? here), Plan.extends_nil settings _⟩
  | @fold head edge face turn offset run here _ ih =>
    rcases ih with ⟨front, sheltered, stops, grown⟩
    refine ⟨.fold edge face turn offset :: front, sheltered.cons (by simp [Token.lift]), ?_, ?_⟩
    · rw [Token.drop_of_getElem? here]
      exact stops.append [.fold edge face turn offset] fun _ _ _ => by simp [Token.lift]
    · exact (Plan.extends_fold settings _ _ edge face turn offset _).append grown
  | @unclosed head offset branch here fits _ unclosed ih =>
    rcases ih with ⟨front, sheltered, stops, grown⟩
    refine ⟨.branchOpen offset :: front, sheltered.cons (by simp [Token.lift]), ?_, ?_⟩
    · rw [Token.drop_of_getElem? here]
      exact stops.append [.branchOpen offset] fun closing rest closed => absurd closed (unclosed closing rest)
    · exact (Plan.extends_brace rfl _).append grown
  | @past head offset branch closing rest run here fits inside closed _ ih onward =>
    rcases ih with ⟨inner, sheltered, stops, grown⟩
    rcases onward with ⟨front, sheltered', stops', grown'⟩
    rw [closed] at stops
    cases stops with
    | closed parts level =>
      -- The braces of the branch cancel, so what stops behind it stops at the same balance from its front on.
      refine ⟨.branchOpen offset :: inner ++ [.branchClose closing] ++ front,
        (sheltered.enclosed offset closing).append sheltered', ?_, ?_⟩
      · rw [inside.drop_past here closed parts]
        exact stops'.append _ fun _ _ _ => by simp [level, Token.lift]
      · have opening : Plan.Extends settings [.branchOpen offset] head.plans head.plans := Plan.extends_brace rfl _
        have closing : Plan.Extends settings [.branchClose closing] branch.plans branch.plans := Plan.extends_brace rfl _
        exact ((opening.append grown).append closing).append grown'

theorem Follows.matched (follows : Follows settings tokens head run) (ended : ∀ offset, run.stop ≠ .tooDeep offset) :
    ((surplus tokens head.position = ∅ ∧ run.stop = .exhausted ∧ run.stop.next tokens = tokens.length) ∨
      ∃ last offset, IsLeast (surplus tokens head.position) last ∧
        run.stop = .closed offset (tokens.drop (last + 1)) ∧ run.stop.next tokens = last + 1 ∧
        tokens[last]? = some (.branchClose offset)) ∧
    Plan.Extends settings (tokens.extract head.position (run.stop.next tokens)) head.plans run.plans := by
  rcases follows.reads with ⟨front, sheltered, stops, grown⟩
  have left := follows.rest_eq_drop
  generalize run.stop = stop at *
  cases stops with
  | exhausted whole =>
    have next : ChainEnd.exhausted.next tokens = tokens.length := rfl
    rw [next, List.extract, ← List.length_drop, List.take_length, whole]
    exact ⟨.inl ⟨Token.surplus_eq_empty (whole ▸ sheltered), rfl, rfl⟩, grown⟩
  | @closed offset rest parts level =>
    have next : (ChainEnd.closed offset rest).next tokens = head.position + front.length + 1 := by
      rw [ChainEnd.next, Token.length_of_parts parts]
      exact Nat.add_sub_cancel _ _
    have there : tokens[head.position + front.length]? = some (.branchClose offset) := by
      rw [← List.getElem?_drop, parts]
      simp
    have left : rest = tokens.drop (head.position + front.length + 1) := next ▸ left
    rw [next, Token.extract_of_parts parts]
    refine ⟨.inr ⟨_, offset, Token.isLeast_surplus parts sheltered level, congrArg _ left, rfl, there⟩, ?_⟩
    exact grown.append (Plan.extends_brace rfl _)
  | @tooDeep offset => exact absurd rfl (ended offset)

/-- Braces match and chains come to an end, wherever a chain starts and whatever has been planned. Unless a branch
lies too deep, a chain is closed by the first brace that is one too many from its start on, or else it runs to the
end of the tokens. The panels it was given stay, and behind them stands one for every fold up to where it stopped.
Its turns and the branches it enters start at later and later positions, and no path of them is longer than the
tokens that are left, so the rules of a chain have exactly one outcome. -/
theorem ChainHead.run_matched (settings : Settings S) (tokens : List Token) (head : ChainHead S) :
    let run := head.run settings tokens
    let next := run.stop.next tokens
    (∀ planned, run.result settings = .ok planned →
      ((surplus tokens head.position).Nonempty → ∃ last offset, IsLeast (surplus tokens head.position) last ∧
        run.stop = .closed offset (tokens.drop next) ∧ next = last + 1 ∧ head.position < next ∧
        tokens[next - 1]? = some (.branchClose offset)) ∧
      (surplus tokens head.position = ∅ → run.stop = .exhausted ∧ next = tokens.length) ∧
      Plan.Extends settings (tokens.extract head.position next) head.plans planned) ∧
    (∀ path, (head :: path).IsChain (Leads settings tokens) →
      (∀ later ∈ path, head.position < later.position ∧ later.position ≤ tokens.length) ∧
        path.length ≤ tokens.length - head.position) ∧
    ∀ outcome, Follows settings tokens head outcome ↔ outcome = run := by
  intro run next
  have follows : Follows settings tokens head run := follows_iff.mpr rfl
  refine ⟨?_, fun path leads => Leads.of_isChain leads, fun outcome => follows_iff⟩
  intro planned ok
  rcases ChainRun.result_eq_ok_iff.mp ok with ⟨rfl, ended⟩
  rcases follows.matched ended with ⟨⟨none, stops, whole⟩ | ⟨last, offset, least, stops, here, there⟩, grown⟩
  · refine ⟨fun some => absurd none some.ne_empty, fun _ => ⟨stops, whole⟩, grown⟩
  · have beyond : head.position < next := follows.position_lt stops
    have here : next = last + 1 := here
    refine ⟨fun _ => ⟨last, offset, least, here ▸ stops, here, beyond, ?_⟩, ?_, grown⟩
    · rw [here]
      exact there
    · intro none
      rw [none] at least
      exact absurd least.1 (Set.notMem_empty last)

/-- The chain of a branch that holds another branch. Its own brace is the one at position 6, and the brace behind
that one is not read. -/
theorem ChainHead.run_matched_inside :
    let tokens : List Token := [.branchOpen 0, .fold .a .front .quarter 1, .branchOpen 3, .fold .b .back .half 4,
      .branchClose 6, .fold .c .front .threeQuarter 7, .branchClose 9, .branchClose 10, .fold .d .front .quarter 11]
    let head : ChainHead Float32 := ⟨1, ⟨0, 0⟩, 1, #[.root 0]⟩
    ∃ planned, (head.run .standard tokens).result .standard = .ok planned ∧ planned.size = 4 ∧
      IsLeast (surplus tokens 1) 6 ∧ (head.run .standard tokens).stop = .closed 9 (tokens.drop 7) ∧
      Plan.Extends .standard (tokens.extract 1 7) head.plans planned := by
  intro tokens head
  have follows : Follows .standard tokens head _ :=
    .fold rfl (.past rfl (by decide) (.fold rfl (.branchClose rfl)) rfl (.fold rfl (.branchClose rfl)))
  have matched := (ChainHead.run_matched .standard tokens head).1
  rw [follows.run_eq] at matched ⊢
  rcases matched _ rfl with ⟨closes, _, grown⟩
  rcases closes ⟨6, by decide, rfl⟩ with ⟨last, offset, least, _, next, _⟩
  cases next
  exact ⟨_, rfl, rfl, least, rfl, grown⟩

end HingedPanels
