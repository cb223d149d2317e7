import HingedPanels.Proofs.Token.Scans
import Mathlib

namespace HingedPanels.Token

open String (utf8Len)

def movedTo (offset : Nat) : Token → Token
  | fold edge face turn _ => fold edge face turn offset
  | branchOpen _ => branchOpen offset
  | branchClose _ => branchClose offset

@[simp] theorem offset_movedTo (offset : Nat) (t : Token) : (t.movedTo offset).offset = offset := by
  cases t <;> rfl

@[simp] theorem movedTo_movedTo (offset other : Nat) (t : Token) :
    (t.movedTo other).movedTo offset = t.movedTo offset := by
  cases t <;> rfl

@[simp] theorem movedTo_self (t : Token) : t.movedTo t.offset = t := by
  cases t <;> rfl

def movedBy (distance : Nat) (t : Token) : Token := t.movedTo (t.offset + distance)

@[simp] theorem movedBy_fold (distance : Nat) (edge : Edge) (face : Face) (turn : Turn) (offset : Nat) :
    (fold edge face turn offset).movedBy distance = fold edge face turn (offset + distance) := rfl

@[simp] theorem movedBy_branchOpen (distance offset : Nat) :
    (branchOpen offset).movedBy distance = branchOpen (offset + distance) := rfl

@[simp] theorem movedBy_branchClose (distance offset : Nat) :
    (branchClose offset).movedBy distance = branchClose (offset + distance) := rfl

theorem movedBy_movedBy (distance further : Nat) (t : Token) :
    (t.movedBy distance).movedBy further = t.movedBy (distance + further) := by
  simp [movedBy, Nat.add_assoc]

abbrev Blank := { c : Char // c ∈ [' ', '\t', '\n', '\r', '\x0c'] }

theorem isBlank_iff {c : Char} : isBlank c = true ↔ c ∈ [' ', '\t', '\n', '\r', '\x0c'] := by
  simp only [isBlank, Bool.or_eq_true, decide_eq_true_eq, List.mem_cons, List.not_mem_nil, or_false]
  tauto

/-- What a text is made of. A token counts here for its characters and not for its place. -/
inductive Item where
  | blank (c : Blank)
  | token (t : Token)

namespace Item

def text : Item → List Char
  | blank c => [c.1]
  | token t => t.text

/-- The tokens among the items of a text that starts at byte `start`, each at its first byte. -/
def tokens (start : Nat) : List Item → List Token
  | [] => []
  | blank c :: rest => tokens (start + c.1.utf8Size) rest
  | token t :: rest => t.movedTo start :: tokens (start + utf8Len t.text) rest

end Item

theorem Item.tokens_append (front back : List Item) (start : Nat) :
    tokens start (front ++ back) = tokens start front ++ tokens (start + utf8Len (front.flatMap text)) back := by
  induction front generalizing start with
  | nil => rfl
  | cons item front ih =>
    cases item with
    | blank c => simp [tokens, text, ih, Nat.add_assoc, Nat.add_comm]
    | token t => simp [tokens, text, ih, Nat.add_assoc]

theorem Item.tokens_add (items : List Item) (start distance : Nat) :
    tokens (start + distance) items = (tokens start items).map (movedBy distance) := by
  induction items generalizing start with
  | nil => rfl
  | cons item items ih =>
    have later (width : Nat) : start + distance + width = start + width + distance := by omega
    cases item with
    | blank c => rw [tokens, tokens, later, ih]
    | token t => simp [tokens, later, ih, movedBy]

theorem isBlank_letter (edge : Edge) (face : Face) : isBlank (letter edge face) = false := by
  cases edge <;> cases face <;> rfl

theorem letter_ne_brace (edge : Edge) (face : Face) : letter edge face ≠ '{' ∧ letter edge face ≠ '}' := by
  cases edge <;> cases face <;> decide

theorem scan_blank (c : Blank) (start : Nat) (rest : List Char) :
    scan start (c.1 :: rest) = scan (start + c.1.utf8Size) rest := by
  simp [scan, isBlank_iff.mpr c.2]

theorem scan_token (start : Nat) (t : Token) (rest : List Char) :
    scan start (t.text ++ rest) = (scan (start + utf8Len t.text) rest).map (t.movedTo start :: ·) := by
  cases t with
  | fold edge face turn offset =>
    have apart := letter_ne_brace edge face
    simp [text, scan, movedTo, isBlank_letter, apart, Nat.add_assoc, Nat.add_comm]
  | branchOpen offset => rfl
  | branchClose offset => rfl

theorem scan_append (items : List Item) (start : Nat) (rest : List Char) :
    scan start (items.flatMap Item.text ++ rest) =
      (scan (start + utf8Len (items.flatMap Item.text)) rest).map (Item.tokens start items ++ ·) := by
  induction items generalizing start with
  | nil => cases scanned : scan start rest <;> simp [Item.tokens, Except.map, scanned]
  | cons item items ih =>
    rw [List.flatMap_cons, List.append_assoc, String.utf8Len_append, ← Nat.add_assoc]
    cases item with
    | blank c =>
      have width : utf8Len (Item.blank c).text = c.1.utf8Size := by simp [Item.text]
      rw [width]
      exact (scan_blank c start _).trans (ih _)
    | token t =>
      rw [Item.text, scan_token, ih]
      cases scan (start + utf8Len t.text + utf8Len (items.flatMap Item.text)) rest <;> rfl

theorem scan_items (items : List Item) (start : Nat) :
    scan start (items.flatMap Item.text) = .ok (Item.tokens start items) := by
  have read := scan_append items start []
  rwa [List.append_nil, scan, Except.map, List.append_nil] at read

theorem Scans.exists_items {start : Nat} {text : List Char} {tokens : List Token} (scans : Scans start text tokens) :
    ∃ items : List Item, text = items.flatMap Item.text ∧ tokens = Item.tokens start items := by
  induction scans with
  | done start => exact ⟨[], rfl, rfl⟩
  | blank c skipped _ ih =>
    obtain ⟨items, shape, same⟩ := ih
    exact ⟨.blank ⟨c, isBlank_iff.mp skipped⟩ :: items, by simp [shape, Item.text], same⟩
  | token t here _ ih =>
    obtain ⟨items, shape, same⟩ := ih
    refine ⟨.token t :: items, by simp [shape, Item.text], ?_⟩
    rw [Item.tokens, same, ← here, movedTo_self]

theorem scan_eq_ok_iff {start : Nat} {text : List Char} {tokens : List Token} :
    scan start text = .ok tokens ↔
      ∃ items : List Item, text = items.flatMap Item.text ∧ tokens = Item.tokens start items := by
  constructor
  · intro scanned
    exact (scans_of_scan scanned).exists_items
  · rintro ⟨items, rfl, rfl⟩
    exact scan_items items start

theorem ofGrammar_append {before after : String} {front back : List Token} (scanned : ofGrammar before = .ok front)
    (scanned' : ofGrammar after = .ok back) :
    ofGrammar (before ++ after) = .ok (front ++ back.map (movedBy before.utf8ByteSize)) := by
  obtain ⟨items, text, same⟩ := scan_eq_ok_iff.mp scanned
  obtain ⟨items', text', same'⟩ := scan_eq_ok_iff.mp scanned'
  have width : before.utf8ByteSize = utf8Len (items.flatMap Item.text) := by
    rw [← text, ← String.utf8ByteSize_ofList, String.ofList_toList]
  apply scan_eq_ok_iff.mpr
  refine ⟨items ++ items', by rw [String.toList_append, text, text', List.flatMap_append], ?_⟩
  rw [Item.tokens_append, Item.tokens_add, same, same', width]

theorem offset_lt_of_ofGrammar {grammar : String} {tokens : List Token} (scanned : ofGrammar grammar = .ok tokens)
    {t : Token} (member : t ∈ tokens) : t.offset < grammar.utf8ByteSize := by
  obtain ⟨before, after, text, place⟩ := (scans_of_scan scanned).provenance member
  have width : grammar.utf8ByteSize = utf8Len grammar.toList := by
    rw [← String.utf8ByteSize_ofList, String.ofList_toList]
  have present := utf8Len_text_pos t
  rw [width, text, place, String.utf8Len_append, String.utf8Len_append]
  omega

/-- A text with a run of blanks before every token and another one at the end. -/
def written (spaced : List (List Blank × Token)) (last : List Blank) : List Char :=
  spaced.flatMap (fun (run, t) => run.map (·.1) ++ t.text) ++ last.map (·.1)

theorem written_cons (run : List Blank) (t : Token) (spaced : List (List Blank × Token)) (last : List Blank) :
    written ((run, t) :: spaced) last = run.map (·.1) ++ (t.text ++ written spaced last) := by
  simp [written]

theorem scan_blanks (run : List Blank) (start : Nat) (rest : List Char) :
    scan start (run.map (·.1) ++ rest) = scan (start + utf8Len (run.map (·.1))) rest := by
  induction run generalizing start with
  | nil => rfl
  | cons c run ih =>
    rw [List.map_cons, List.cons_append, scan_blank c, ih, String.utf8Len_cons, Nat.add_assoc, Nat.add_comm c.1.utf8Size]

theorem scan_written (spaced : List (List Blank × Token)) (last : List Blank) (start : Nat) :
    ∃ tokens, scan start (written spaced last) = .ok tokens ∧ tokens.length = spaced.length ∧
      ∀ (k : Nat) (run : List Blank) (t : Token), spaced[k]? = some (run, t) →
        tokens[k]? = some (t.movedTo (start + utf8Len (written (spaced.take k) run))) := by
  induction spaced generalizing start with
  | nil =>
    have blanks := scan_blanks last start []
    rw [List.append_nil] at blanks
    exact ⟨[], blanks, rfl, by simp⟩
  | cons pair spaced ih =>
    obtain ⟨run, t⟩ := pair
    obtain ⟨tokens, scanned, same, places⟩ := ih (start + utf8Len (run.map (·.1)) + utf8Len t.text)
    refine ⟨t.movedTo (start + utf8Len (run.map (·.1))) :: tokens, ?_, by simp [same], ?_⟩
    · rw [written_cons, scan_blanks, scan_token, scanned]
      rfl
    · intro k run' t' there
      cases k with
      | zero =>
        cases there
        simp [written]
      | succ k =>
        have place := places k run' t' there
        rw [List.getElem?_cons_succ, place, List.take_succ_cons, written_cons, String.utf8Len_append,
          String.utf8Len_append]
        simp only [Nat.add_assoc]

/-- Scanning accepts the concatenations of blanks and tokens and nothing else. The tokens come out in their
order, whatever blanks stand around them, each with the number of bytes written before it. -/
theorem ofGrammar_language :
    (∀ grammar tokens, ofGrammar grammar = .ok tokens ↔
      ∃ items : List Item, grammar.toList = items.flatMap Item.text ∧ tokens = Item.tokens 0 items) ∧
    ∀ (spaced : List (List Blank × Token)) (last : List Blank), ∃ tokens,
      ofGrammar (String.ofList (written spaced last)) = .ok tokens ∧ tokens.length = spaced.length ∧
      ∀ (k : Nat) (run : List Blank) (t : Token), spaced[k]? = some (run, t) →
        tokens[k]? = some (t.movedTo (String.ofList (written (spaced.take k) run)).utf8ByteSize) := by
  refine ⟨fun _ _ => scan_eq_ok_iff, ?_⟩
  intro spaced last
  obtain ⟨tokens, scanned, same, places⟩ := scan_written spaced last 0
  refine ⟨tokens, ?_, same, ?_⟩
  · rw [ofGrammar, String.toList_ofList]
    exact scanned
  · intro k run t there
    rw [places k run t there, String.utf8ByteSize_ofList, Nat.zero_add]

end HingedPanels.Token
