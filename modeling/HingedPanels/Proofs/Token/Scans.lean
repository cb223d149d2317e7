import HingedPanels.Token
import Mathlib

namespace HingedPanels.Token

open String (utf8Len)

/-- The text, which starts at byte `start`, consists of blanks and of these tokens in this order. -/
inductive Scans : Nat → List Char → List Token → Prop
  | done (start : Nat) : Scans start [] []
  | blank {start rest tokens} (c : Char) (skipped : isBlank c) (scans : Scans (start + c.utf8Size) rest tokens) :
      Scans start (c :: rest) tokens
  | token {start rest tokens} (token : Token) (here : token.offset = start)
      (scans : Scans (start + utf8Len token.text) rest tokens) : Scans start (token.text ++ rest) (token :: tokens)

theorem letter_of_ofLetter? {c : Char} {edge : Edge} {face : Face} (read : ofLetter? c = some (edge, face)) :
    letter edge face = c := by
  unfold ofLetter? at read
  split at read <;> cases read <;> rfl

theorem digit_of_ofDigit? {c : Char} {turn : Turn} (read : Turn.ofDigit? c = some turn) : turn.digit = c := by
  unfold Turn.ofDigit? at read
  split at read <;> cases read <;> rfl

theorem scans_of_map {start : Nat} {text rest : List Char} {token : Token} {tokens : List Token}
    {scanned : Except GrammarError (List Token)} (read : scanned.map (token :: ·) = .ok tokens)
    (here : token.offset = start) (shape : text = token.text ++ rest)
    (ih : ∀ {tokens}, scanned = .ok tokens → Scans (start + utf8Len token.text) rest tokens) :
    Scans start text tokens := by
  cases scanned with
  | error fault => cases read
  | ok later =>
    cases read
    subst shape
    exact .token token here (ih rfl)

theorem scans_of_scan {start : Nat} {text : List Char} {tokens : List Token}
    (scanned : scan start text = .ok tokens) : Scans start text tokens := by
  fun_induction scan start text generalizing tokens with
  | case1 start =>
    cases scanned
    exact .done start
  | case2 start c rest skipped ih => exact .blank c skipped (ih scanned)
  | case3 start rest _ ih => exact scans_of_map scanned rfl rfl ih
  | case4 start rest _ _ ih => exact scans_of_map scanned rfl rfl ih
  | case5 => cases scanned
  | case6 => cases scanned
  | case7 => cases scanned
  | case8 start c _ _ _ edge face read _ d rest turn turned =>
    rename_i ih
    have first := letter_of_ofLetter? read
    have second := digit_of_ofDigit? turned
    subst first second
    refine scans_of_map scanned rfl rfl ?_
    intro tokens later
    have width : start + utf8Len (fold edge face turn start).text =
        start + (letter edge face).utf8Size + turn.digit.utf8Size := by
      simp only [text, String.utf8Len_cons, String.utf8Len_nil]
      omega
    rw [width]
    exact ih later

theorem Scans.provenance {start : Nat} {text : List Char} {tokens : List Token}
    (scans : Scans start text tokens) {token : Token} (member : token ∈ tokens) :
    ∃ before after, text = before ++ token.text ++ after ∧ token.offset = start + utf8Len before := by
  induction scans with
  | done => cases member
  | blank c _ _ ih =>
    rcases ih member with ⟨before, after, shape, place⟩
    refine ⟨c :: before, after, by rw [shape]; rfl, ?_⟩
    rw [place, String.utf8Len_cons]
    omega
  | @token start rest tokens head here _ ih =>
    rcases List.mem_cons.mp member with rfl | member
    · exact ⟨[], rest, rfl, here⟩
    · rcases ih member with ⟨before, after, shape, place⟩
      refine ⟨head.text ++ before, after, by rw [shape]; simp, ?_⟩
      rw [place, String.utf8Len_append]
      omega

theorem utf8Len_text_pos (token : Token) : 0 < utf8Len token.text := by
  cases token with
  | fold edge face turn offset =>
    have := (letter edge face).utf8Size_pos
    simp only [text, String.utf8Len_cons]
    omega
  | branchOpen | branchClose => exact Nat.succ_pos _

theorem Scans.start_le {start : Nat} {text : List Char} {tokens : List Token} (scans : Scans start text tokens) :
    ∀ token ∈ tokens, start ≤ token.offset := by
  intro token member
  obtain ⟨before, _, _, place⟩ := scans.provenance member
  omega

theorem Scans.pairwise_offset {start : Nat} {text : List Char} {tokens : List Token}
    (scans : Scans start text tokens) : tokens.Pairwise (·.offset < ·.offset) := by
  induction scans with
  | done => exact .nil
  | blank _ _ _ ih => exact ih
  | token head here scans ih =>
    apply List.Pairwise.cons _ ih
    intro later member
    have after := scans.start_le later member
    have width := utf8Len_text_pos head
    omega

theorem stands_of_ofGrammar {grammar : String} {tokens : List Token} (scanned : ofGrammar grammar = .ok tokens)
    {edge : Edge} {face : Face} {turn : Turn} {offset : Nat} (member : fold edge face turn offset ∈ tokens) :
    ∃ left right, grammar.toList = left ++ letter edge face :: turn.digit :: right ∧
      (String.ofList left).utf8ByteSize = offset := by
  obtain ⟨left, right, shape, place⟩ := (scans_of_scan scanned).provenance member
  refine ⟨left, right, by rw [shape]; simp [text], ?_⟩
  have counted : offset = 0 + utf8Len left := place
  rw [String.utf8ByteSize_ofList, counted, Nat.zero_add]

end HingedPanels.Token
