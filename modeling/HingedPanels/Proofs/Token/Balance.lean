import HingedPanels.Token
import Mathlib

/-!
Braces of a token list. The balance of a list is the depth at which the text stands after it, as long
as no closing brace is stray, and the live part of a list is what precedes its first stray brace.
-/

namespace HingedPanels.Token

def lift : Token → Int
  | fold _ _ _ _ => 0
  | branchOpen _ => 1
  | branchClose _ => -1

/-- Opening braces less closing ones. -/
def balance (tokens : List Token) : Int := (tokens.map lift).sum

def isFold : Token → Bool
  | fold _ _ _ _ => true
  | branchOpen _ | branchClose _ => false

def folds (tokens : List Token) : Nat := tokens.countP isFold

/-- No closing brace of the list is stray. -/
def Sheltered (tokens : List Token) : Prop := ∀ count, 0 ≤ balance (tokens.take count)

/-- `front` is the part of the tokens before the first stray brace, or all of them without one. -/
def Live (tokens front : List Token) : Prop :=
  Sheltered front ∧ (tokens = front ∨
    ∃ offset rest, tokens = front ++ branchClose offset :: rest ∧ balance front = 0)

/-- The token at position `j` is a fold, and the balance never falls below its depth from there on. -/
def Reaches (tokens : List Token) (j : Nat) : Prop :=
  (∃ token, tokens[j]? = some token ∧ token.isFold = true) ∧
    ∀ count, j ≤ count → balance (tokens.take j) ≤ balance (tokens.take count)

/-- The panel of the latest fold at a position of this kind, or the root where there is none. -/
def LatestPanel (tokens : List Token) (kind : Nat → Prop) (panel : Nat) : Prop :=
  (∃ j, kind j ∧ (∀ later, kind later → later ≤ j) ∧ panel = folds (tokens.take j) + 1) ∨
    (∀ j, ¬ kind j) ∧ panel = 0

@[simp] theorem balance_nil : balance [] = 0 := rfl

@[simp] theorem balance_cons (token : Token) (tokens : List Token) :
    balance (token :: tokens) = token.lift + balance tokens := by
  simp [balance]

@[simp] theorem balance_append (front back : List Token) :
    balance (front ++ back) = balance front + balance back := by
  simp [balance]

@[simp] theorem folds_nil : folds [] = 0 := rfl

@[simp] theorem folds_cons (token : Token) (tokens : List Token) :
    folds (token :: tokens) = folds tokens + if token.isFold then 1 else 0 := by
  simp [folds, List.countP_cons]

@[simp] theorem folds_append (front back : List Token) :
    folds (front ++ back) = folds front + folds back := by
  simp [folds]

theorem sheltered_nil : Sheltered [] := by
  intro count
  simp

theorem Sheltered.balance_nonneg {tokens : List Token} (sheltered : Sheltered tokens) :
    0 ≤ balance tokens := by
  simpa using sheltered tokens.length

theorem take_snoc (front : List Token) (token : Token) (count : Nat) :
    (front ++ [token]).take count = if count ≤ front.length then front.take count else front ++ [token] := by
  split
  · exact List.take_append_of_le_length ‹_›
  · exact List.take_of_length_le (by simp; omega)

theorem Sheltered.snoc {front : List Token} (sheltered : Sheltered front) (token : Token)
    (above : 0 ≤ balance front + token.lift) : Sheltered (front ++ [token]) := by
  intro count
  rw [take_snoc]
  split
  · exact sheltered count
  · simpa using above

theorem Sheltered.append {front back : List Token} (sheltered : Sheltered front) (sheltered' : Sheltered back) :
    Sheltered (front ++ back) := by
  intro count
  rw [List.take_append, balance_append]
  exact Int.add_nonneg (sheltered count) (sheltered' _)

theorem Sheltered.cons {tokens : List Token} (sheltered : Sheltered tokens) {token : Token} (nonneg : 0 ≤ token.lift) :
    Sheltered (token :: tokens) := by
  have first : Sheltered [token] := sheltered_nil.snoc token (by simpa using nonneg)
  exact first.append sheltered

theorem sheltered_iff (tokens : List Token) :
    Sheltered tokens ↔ ∀ count ≤ tokens.length, 0 ≤ balance (tokens.take count) := by
  constructor
  · intro sheltered count _
    exact sheltered count
  · intro bounded count
    rw [List.take_eq_take_min]
    exact bounded _ (Nat.min_le_right count tokens.length)

instance (tokens : List Token) : Decidable (Sheltered tokens) := decidable_of_iff' _ (sheltered_iff tokens)

theorem Live.exists_append {tokens front : List Token} (live : Live tokens front) :
    ∃ rest, tokens = front ++ rest := by
  rcases live.2 with rfl | ⟨offset, rest, parts, _⟩
  · exact ⟨[], by simp⟩
  · exact ⟨_, parts⟩

theorem Reaches.lt_length {tokens : List Token} {j : Nat} (reaches : Reaches tokens j) : j < tokens.length := by
  rcases reaches with ⟨⟨_, there, _⟩, _⟩
  exact (List.getElem?_eq_some_iff.mp there).1

theorem Reaches.balance_le {tokens : List Token} {j : Nat} (reaches : Reaches tokens j) :
    balance (tokens.take j) ≤ balance tokens := by
  simpa using reaches.2 tokens.length (Nat.le_of_lt reaches.lt_length)

theorem Reaches.of_snoc {front : List Token} {token : Token} {j : Nat} (reaches : Reaches (front ++ [token]) j)
    (before : j < front.length) : Reaches front j ∧ balance (front.take j) ≤ balance front + token.lift := by
  rcases reaches with ⟨⟨found, there, fold⟩, above⟩
  rw [List.getElem?_append_left before] at there
  rw [List.take_append_of_le_length (Nat.le_of_lt before)] at above
  have onward : ∀ count, j ≤ count → balance (front.take j) ≤ balance (front.take count) := by
    intro count after
    by_cases inside : count ≤ front.length
    · simpa [List.take_append_of_le_length inside] using above count after
    · have whole := above front.length (Nat.le_of_lt before)
      have short : front.take count = front := List.take_of_length_le (by omega)
      rw [short]
      simpa using whole
  have last := above (front.length + 1) (by omega)
  rw [take_snoc, if_neg (by omega), balance_append] at last
  exact ⟨⟨⟨found, there, fold⟩, onward⟩, by simpa using last⟩

theorem Reaches.snoc {front : List Token} {j : Nat} (reaches : Reaches front j) (token : Token)
    (above : balance (front.take j) ≤ balance front + token.lift) : Reaches (front ++ [token]) j := by
  have before := reaches.lt_length
  rcases reaches with ⟨⟨found, there, fold⟩, upTo⟩
  refine ⟨⟨found, by rw [List.getElem?_append_left before]; exact there, fold⟩, ?_⟩
  intro count after
  rw [take_snoc, take_snoc, if_pos (Nat.le_of_lt before)]
  split
  · exact upTo count after
  · simpa using above

theorem reaches_last (front : List Token) {token : Token} (fold : token.isFold = true) :
    Reaches (front ++ [token]) front.length := by
  refine ⟨⟨token, List.getElem?_concat_length, fold⟩, ?_⟩
  intro count after
  rw [take_snoc, take_snoc, if_pos (Nat.le_refl _), List.take_length]
  split
  · rw [List.take_of_length_le (by omega)]
  · cases token with
    | fold => simp [lift]
    | branchOpen | branchClose => cases fold

theorem reaches_snoc_iff (front : List Token) (token : Token) (j : Nat) :
    Reaches (front ++ [token]) j ↔ (j = front.length ∧ token.isFold = true) ∨
      (Reaches front j ∧ balance (front.take j) ≤ balance front + token.lift) := by
  constructor
  · intro reaches
    have bound := reaches.lt_length
    rw [List.length_append, List.length_singleton] at bound
    rcases Nat.lt_succ_iff_lt_or_eq.mp bound with before | rfl
    · exact .inr (reaches.of_snoc before)
    · rcases reaches with ⟨⟨found, there, fold⟩, _⟩
      rw [List.getElem?_concat_length] at there
      cases there
      exact .inl ⟨rfl, fold⟩
  · rintro (⟨rfl, fold⟩ | ⟨reaches, above⟩)
    · exact reaches_last front fold
    · exact reaches.snoc token above

theorem LatestPanel.snoc {front : List Token} {kind longer : Nat → Prop} {panel : Nat}
    (latest : LatestPanel front kind panel) (token : Token) (inside : ∀ j, kind j → j < front.length)
    (same : ∀ j, longer j ↔ kind j) : LatestPanel (front ++ [token]) longer panel := by
  rcases latest with ⟨j, here, last, rfl⟩ | ⟨none, rfl⟩
  · refine .inl ⟨j, (same j).mpr here, fun later there => last later ((same later).mp there), ?_⟩
    rw [List.take_append_of_le_length (Nat.le_of_lt (inside j here))]
  · exact .inr ⟨fun j there => none j ((same j).mp there), rfl⟩

theorem snoc_eq_append_cons {front before after : List Token} {last token : Token}
    (parts : front ++ [last] = before ++ token :: after) :
    (∃ rest, front = before ++ token :: rest) ∨ (before = front ∧ token = last) := by
  rcases List.eq_nil_or_concat after with rfl | ⟨rest, final, rfl⟩
  · obtain ⟨same, ends⟩ := List.append_inj' parts rfl
    exact .inr ⟨same.symm, (List.singleton_inj.mp ends).symm⟩
  · rw [List.concat_eq_append, ← List.cons_append, ← List.append_assoc] at parts
    exact .inl ⟨rest, (List.append_inj' parts rfl).1⟩

theorem exists_fold_of_lt_folds {tokens : List Token} {number : Nat} (counted : number < folds tokens) :
    ∃ before edge face turn offset after,
      tokens = before ++ fold edge face turn offset :: after ∧ folds before = number := by
  induction tokens generalizing number with
  | nil => cases counted
  | cons token rest ih =>
    cases token with
    | fold edge face turn offset =>
      cases number with
      | zero => exact ⟨[], edge, face, turn, offset, rest, rfl, rfl⟩
      | succ number =>
        have later : number < folds rest := by simpa [isFold] using counted
        rcases ih later with ⟨before, edge', face', turn', offset', after, rfl, rfl⟩
        exact ⟨_ :: before, edge', face', turn', offset', after, rfl, by simp [isFold]⟩
    | branchOpen offset | branchClose offset =>
      have later : number < folds rest := by simpa [isFold] using counted
      rcases ih later with ⟨before, edge, face, turn, offset', after, rfl, rfl⟩
      exact ⟨_ :: before, edge, face, turn, offset', after, rfl, by simp [isFold]⟩

theorem mem_of_folds_lt {before after before' after' : List Token} {token token' : Token}
    (same : before ++ token :: after = before' ++ token' :: after') (fewer : folds before < folds before') :
    token ∈ before' := by
  rcases List.append_eq_append_iff.mp same with ⟨between, rfl, parts⟩ | ⟨between, rfl, _⟩
  · cases between with
    | nil => simp at fewer
    | cons first more =>
      have first_eq := (List.cons.inj parts).1
      rw [first_eq]
      simp
  · rw [folds_append] at fewer
    omega

theorem LatestPanel.le_folds {tokens : List Token} {panel : Nat}
    (latest : LatestPanel tokens (Reaches tokens) panel) : panel ≤ folds tokens := by
  rcases latest with ⟨j, reaches, _, rfl⟩ | ⟨_, rfl⟩
  · rcases reaches.1 with ⟨token, there, fold⟩
    obtain ⟨bound, rfl⟩ := List.getElem?_eq_some_iff.mp there
    calc
      folds (tokens.take j) + 1 ≤ folds (tokens.take (j + 1)) := by
        rw [List.take_succ_eq_append_getElem bound, folds_append, folds_cons, if_pos fold]
        omega
      _ ≤ folds (tokens.take (j + 1) ++ tokens.drop (j + 1)) := by
        rw [folds_append]
        omega
      _ = folds tokens := by rw [List.take_append_drop]
  · exact Nat.zero_le _

end HingedPanels.Token
