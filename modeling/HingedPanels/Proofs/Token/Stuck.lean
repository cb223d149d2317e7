import HingedPanels.Proofs.Token.Language
import Mathlib

namespace HingedPanels.Token

open String (utf8Len)

/-- The text starts at byte `start` and can be read no further: its first character is nothing known, or it
is an edge letter without a digit. -/
inductive Stuck (start : Nat) : List Char → GrammarError → Prop
  | unknown (c : Char) (rest : List Char) (solid : isBlank c = false) (plain : c ≠ '{' ∧ c ≠ '}')
      (nameless : ofLetter? c = none) : Stuck start (c :: rest) ⟨start, some c, .unknownToken⟩
  | unturned (edge : Edge) (face : Face) (rest : List Char) (turnless : rest.head?.bind Turn.ofDigit? = none) :
      Stuck start (letter edge face :: rest) ⟨start + (letter edge face).utf8Size, rest.head?, .badTurn⟩

variable {start : Nat} {text : List Char} {error : GrammarError}

theorem Stuck.scan_eq (stuck : Stuck start text error) : scan start text = .error error := by
  cases stuck with
  | unknown c rest solid plain nameless => simp [scan, solid, plain, nameless]
  | unturned edge face rest turnless =>
    have apart := letter_ne_brace edge face
    cases rest with
    | nil => simp [scan, isBlank_letter, apart]
    | cons d rest =>
      have turnless : Turn.ofDigit? d = none := turnless
      simp [scan, isBlank_letter, apart, turnless]

def Stops (start : Nat) (text : List Char) (error : GrammarError) : Prop :=
  ∃ (items : List Item) (left : List Char), text = items.flatMap Item.text ++ left ∧
    Stuck (start + utf8Len (items.flatMap Item.text)) left error

theorem Stuck.stops (stuck : Stuck start text error) : Stops start text error := ⟨[], text, rfl, stuck⟩

theorem Stops.behind (item : Item) {rest : List Char} (stops : Stops (start + utf8Len item.text) rest error) :
    Stops start (item.text ++ rest) error := by
  obtain ⟨items, left, parts, stuck⟩ := stops
  refine ⟨item :: items, left, by simp [parts], ?_⟩
  rwa [List.flatMap_cons, String.utf8Len_append, ← Nat.add_assoc]

theorem error_of_map {read : List Token → List Token} {scanned : Except GrammarError (List Token)}
    (refused : scanned.map read = .error error) : scanned = .error error := by
  cases scanned with
  | error fault => exact congrArg _ (Except.error.inj refused)
  | ok tokens => cases refused

theorem stops_of_scan (refused : scan start text = .error error) : Stops start text error := by
  fun_induction scan start text with
  | case1 => cases refused
  | case2 start c rest skipped ih =>
    have width : utf8Len (Item.blank ⟨c, isBlank_iff.mp skipped⟩).text = c.utf8Size := by simp [Item.text]
    rw [← width] at ih refused
    exact (ih refused).behind _
  | case3 start rest _ ih => exact (ih (error_of_map refused)).behind (.token (.branchOpen start))
  | case4 start rest _ _ ih => exact (ih (error_of_map refused)).behind (.token (.branchClose start))
  | case5 start c rest solid opens closes nameless =>
    cases refused
    exact (Stuck.unknown c rest (by simpa using solid) ⟨opens, closes⟩ nameless).stops
  | case6 start c _ _ _ edge face read =>
    have first := letter_of_ofLetter? read
    subst first
    cases refused
    exact (Stuck.unturned edge face [] rfl).stops
  | case7 start c _ _ _ edge face read _ d rest turnless =>
    have first := letter_of_ofLetter? read
    subst first
    cases refused
    exact (Stuck.unturned edge face (d :: rest) turnless).stops
  | case8 start c _ _ _ edge face read _ d rest turn turned =>
    rename_i ih
    have first := letter_of_ofLetter? read
    have second := digit_of_ofDigit? turned
    subst first second
    have width : utf8Len (Item.token (.fold edge face turn start)).text =
        (letter edge face).utf8Size + turn.digit.utf8Size := by
      simp [Item.text, Token.text, Nat.add_comm]
    apply Stops.behind (.token (.fold edge face turn start))
    rw [width, ← Nat.add_assoc]
    exact ih (error_of_map refused)

theorem scan_eq_error_iff : scan start text = .error error ↔ Stops start text error := by
  constructor
  · exact stops_of_scan
  · rintro ⟨items, left, rfl, stuck⟩
    rw [scan_append, stuck.scan_eq]
    rfl

theorem Stuck.lexical (stuck : Stuck start text error) : error.fault = .unknownToken ∨ error.fault = .badTurn := by
  cases stuck with
  | unknown => exact .inl rfl
  | unturned => exact .inr rfl

theorem fault_of_scan (refused : scan start text = .error error) :
    error.fault = .unknownToken ∨ error.fault = .badTurn := by
  obtain ⟨_, _, _, stuck⟩ := stops_of_scan refused
  exact stuck.lexical

/-- A text that is stuck has come to a whole end, or to an edge letter, and no text that goes on with the same
character gets further. -/
theorem Stuck.exists_half (stuck : Stuck start text error) : ∃ half rest, text = half ++ rest ∧
    error.offset = start + utf8Len half ∧ error.found = rest.head? ∧
    (∀ c more, error.found = some c → Stuck start (half ++ c :: more) error) ∧
    (error.fault = .unknownToken ∧ half = [] ∧ error.found ≠ none ∨
      error.fault = .badTurn ∧ ∃ edge face, half = [letter edge face]) := by
  cases stuck with
  | unknown c rest solid plain nameless =>
    refine ⟨[], c :: rest, rfl, rfl, rfl, ?_, .inl ⟨rfl, rfl, by simp⟩⟩
    intro d more same
    cases same
    exact .unknown c more solid plain nameless
  | unturned edge face rest turnless =>
    refine ⟨[letter edge face], rest, rfl, by simp, rfl, ?_, .inr ⟨rfl, edge, face, rfl⟩⟩
    intro d more same
    have same : rest.head? = some d := same
    rw [same] at turnless ⊢
    exact .unturned edge face (d :: more) turnless

theorem Stuck.ofGrammar_eq {items : List Item} {left : List Char}
    (stuck : Stuck (utf8Len (items.flatMap Item.text)) left error) :
    ofGrammar (String.ofList (items.flatMap Item.text ++ left)) = .error error := by
  rw [ofGrammar, String.toList_ofList]
  refine scan_eq_error_iff.mpr ⟨items, left, rfl, ?_⟩
  rwa [Nat.zero_add]

theorem ofGrammar_items (items : List Item) :
    ofGrammar (String.ofList (items.flatMap Item.text)) = .ok (Item.tokens 0 items) := by
  rw [ofGrammar, String.toList_ofList, scan_items]

theorem ofGrammar_half (items : List Item) (edge : Edge) (face : Face) :
    (∀ tokens, ofGrammar (String.ofList (items.flatMap Item.text ++ [letter edge face])) ≠ .ok tokens) ∧
      ∃ tokens, ofGrammar (String.ofList (items.flatMap Item.text ++ [letter edge face]) ++ "0") = .ok tokens := by
  constructor
  · intro tokens read
    rw [(Stuck.unturned edge face [] rfl).ofGrammar_eq] at read
    cases read
  · have read := ofGrammar_items (items ++ [.token (.fold edge face .quarter 0)])
    rw [List.flatMap_append] at read
    rw [show "0" = String.ofList ['0'] from rfl, ← String.ofList_append, List.append_assoc]
    exact ⟨_, read⟩

/-- Where a text is refused: the part before the fault is as long as the offset says, so the fault stands at the
start of a character. -/
structure RefusedAt (grammar before after : String) (error : GrammarError) : Prop where
  parts : grammar = before ++ after
  offset_eq : before.utf8ByteSize = error.offset
  offset_le : error.offset ≤ grammar.utf8ByteSize
  found_eq : error.found = after.toList.head?
  found_none_iff : error.found = none ↔ error.offset = grammar.utf8ByteSize
  whole_of_unknown : error.fault = .unknownToken → error.found ≠ none ∧ ∃ tokens, ofGrammar before = .ok tokens
  half_of_badTurn : error.fault = .badTurn →
    (∀ tokens, ofGrammar before ≠ .ok tokens) ∧ ∃ tokens, ofGrammar (before ++ "0") = .ok tokens
  /-- Nothing that follows the character found makes up for it. -/
  hopeless : ∀ c, error.found = some c → ∀ more, ofGrammar (before ++ String.singleton c ++ more) = .error error
  lexical : ∀ limit, error.fault ≠ .branchTooDeep limit

/-- Scanning refuses a text at the earliest place: what stands before can still be completed, by nothing or by a
digit, and what ends with the character found cannot be completed by anything. -/
theorem ofGrammar_earliest {grammar : String} {error : GrammarError} (refused : ofGrammar grammar = .error error) :
    ∃ before after, RefusedAt grammar before after error := by
  -- The text before the fault is the blanks and tokens read and, before a missing turn, the edge letter as well.
  obtain ⟨items, left, parts, stuck⟩ := scan_eq_error_iff.mp refused
  rw [Nat.zero_add] at stuck
  obtain ⟨half, rest, rfl, offset, found, hopeless, ends⟩ := stuck.exists_half
  have whole : grammar = String.ofList (items.flatMap Item.text ++ half) ++ String.ofList rest := by
    rw [← String.ofList_append, List.append_assoc, ← parts, String.ofList_toList]
  have size : (String.ofList (items.flatMap Item.text ++ half)).utf8ByteSize = error.offset := by
    rw [String.utf8ByteSize_ofList, String.utf8Len_append, offset]
  have total : grammar.utf8ByteSize = error.offset + utf8Len rest := by
    rw [whole, String.utf8ByteSize_append, size, String.utf8ByteSize_ofList]
  refine ⟨String.ofList (items.flatMap Item.text ++ half), String.ofList rest, ?_⟩
  constructor
  case parts => exact whole
  case offset_eq => exact size
  case offset_le => omega
  case found_eq => rw [String.toList_ofList, found]
  case found_none_iff =>
    rw [found, total]
    cases rest with
    | nil => simp
    | cons c rest =>
      have present := c.utf8Size_pos
      simp only [List.head?_cons, String.utf8Len_cons, reduceCtorEq, false_iff]
      omega
  case whole_of_unknown =>
    intro unknown
    rcases ends with ⟨_, rfl, present⟩ | ⟨other, _⟩
    · rw [List.append_nil]
      exact ⟨present, _, ofGrammar_items items⟩
    · rw [unknown] at other
      cases other
  case half_of_badTurn =>
    intro turnless
    rcases ends with ⟨other, _⟩ | ⟨_, edge, face, rfl⟩
    · rw [turnless] at other
      cases other
    · exact ofGrammar_half items edge face
  case hopeless =>
    intro c same more
    have stuck' := (hopeless c more.toList same).ofGrammar_eq
    rw [← List.append_assoc, String.ofList_append, String.ofList_cons, String.ofList_toList] at stuck'
    rwa [String.append_assoc]
  case lexical =>
    intro limit deep
    rcases ends with ⟨other, _⟩ | ⟨other, _⟩ <;> simp [deep] at other

theorem ofGrammar_earliest_accent : ofGrammar "B0 cé" = .error ⟨4, some 'é', .badTurn⟩ ∧
    ∃ before after, RefusedAt "B0 cé" before after ⟨4, some 'é', .badTurn⟩ := by
  have refused : ofGrammar "B0 cé" = .error ⟨4, some 'é', .badTurn⟩ := by cbv
  exact ⟨refused, ofGrammar_earliest refused⟩

end HingedPanels.Token
