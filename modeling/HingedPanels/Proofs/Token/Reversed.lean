import HingedPanels.Proofs.Token.Language
import Mathlib

/-!
Grammars read in a mirror. The case of an edge letter says to which side of its parent a panel folds, so a
grammar with the case of its edge letters swapped has the same tokens with every face turned over.
-/

namespace HingedPanels

/-- Whether front stays front and left stays left, as after a rotation, or both change sides. -/
inductive Sense where
  | kept | reversed
  deriving DecidableEq, Repr

namespace Sense

def face : Sense → Face → Face
  | kept, f => f
  | reversed, .front => .back
  | reversed, .back => .front

/-- The case of an edge letter, and of no other character, changes with the sense. -/
def letter (s : Sense) (c : Char) : Char :=
  match Token.ofLetter? c with
  | some (edge, f) => Token.letter edge (s.face f)
  | none => c

def grammar (s : Sense) (g : String) : String := g.map s.letter

def token (s : Sense) : Token → Token
  | .fold edge f turn offset => .fold edge (s.face f) turn offset
  | t => t

variable (s : Sense)

@[simp] theorem face_face (f : Face) : s.face (s.face f) = f := by
  cases s <;> cases f <;> rfl

theorem letter_of_none {c : Char} (other : Token.ofLetter? c = none) : s.letter c = c := by
  rw [letter, other]

@[simp] theorem letter_letter (edge : Edge) (f : Face) :
    s.letter (Token.letter edge f) = Token.letter edge (s.face f) := by
  rw [letter, Token.ofLetter?_letter]

theorem letter_involutive : Function.Involutive s.letter := by
  intro c
  cases read : Token.ofLetter? c with
  | none => rw [s.letter_of_none read, s.letter_of_none read]
  | some known =>
    have same := Token.letter_of_ofLetter? read
    rw [← same, letter_letter, letter_letter, face_face]

theorem letter_kept (c : Char) : kept.letter c = c := by
  cases read : Token.ofLetter? c with
  | none => exact kept.letter_of_none read
  | some known =>
    rw [← Token.letter_of_ofLetter? read, letter_letter]
    rfl

theorem letter_blank {c : Char} (skipped : Token.isBlank c = true) : s.letter c = c := by
  apply s.letter_of_none
  cases read : Token.ofLetter? c with
  | none => rfl
  | some known =>
    rw [← Token.letter_of_ofLetter? read, Token.isBlank_letter] at skipped
    cases skipped

theorem letter_digit (turn : Turn) : s.letter turn.digit = turn.digit := by
  cases turn <;> rfl

@[simp] theorem offset_token (t : Token) : (s.token t).offset = t.offset := by
  cases t <;> rfl

theorem text_token (t : Token) : (s.token t).text = t.text.map s.letter := by
  cases t with
  | fold edge f turn offset => simp [token, Token.text, letter_digit]
  | branchOpen | branchClose => rfl

theorem utf8Len_text_token (t : Token) : String.utf8Len (s.token t).text = String.utf8Len t.text := by
  have narrow (edge : Edge) (f : Face) : (Token.letter edge f).utf8Size = 1 := by
    cases edge <;> cases f <;> rfl
  cases t with
  | fold edge f turn offset => simp [token, Token.text, narrow]
  | branchOpen | branchClose => rfl

theorem scans {start : Nat} {text : List Char} {tokens : List Token} (scans : Token.Scans start text tokens) :
    Token.Scans start (text.map s.letter) (tokens.map s.token) := by
  induction scans with
  | done start => exact .done start
  | blank c skipped _ ih =>
    rw [List.map_cons, s.letter_blank skipped]
    exact .blank c skipped ih
  | token t here _ ih =>
    rw [List.map_append, ← text_token, List.map_cons]
    apply Token.Scans.token
    · rw [offset_token, here]
    · rwa [utf8Len_text_token]

theorem grammar_grammar (g : String) : s.grammar (s.grammar g) = g := by
  apply String.toList_injective
  rw [grammar, grammar, String.toList_map, String.toList_map, List.map_map, s.letter_involutive.comp_self, List.map_id]

example : reversed.grammar "A0{ b2 }x" = "a0{ B2 }x" := by cbv

theorem grammar_kept (g : String) : kept.grammar g = g := by
  apply String.toList_injective
  rw [grammar, String.toList_map]
  exact (List.map_congr_left fun c _ => letter_kept c).trans (List.map_id _)

theorem ofGrammar_of_ok {g : String} {tokens : List Token} (scanned : Token.ofGrammar g = .ok tokens) :
    Token.ofGrammar (s.grammar g) = .ok (tokens.map s.token) := by
  have scans := s.scans (Token.scans_of_scan scanned)
  rw [← String.toList_map] at scans
  exact Token.scan_eq_ok_iff.mpr scans.exists_items

theorem ofGrammar_grammar (g : String) :
    (Token.ofGrammar (s.grammar g)).toOption = (Token.ofGrammar g).toOption.map (·.map s.token) := by
  cases scanned : Token.ofGrammar g with
  | ok tokens =>
    rw [s.ofGrammar_of_ok scanned]
    rfl
  | error fault =>
    cases scanned' : Token.ofGrammar (s.grammar g) with
    | error fault' => rfl
    | ok tokens =>
      have back := s.ofGrammar_of_ok scanned'
      rw [grammar_grammar, scanned] at back
      cases back

end Sense

end HingedPanels
