import HingedPanels.Quad
import HingedPanels.Window

/-!
The tokens of a strip's grammar. A fold is an edge letter, upper case for the front and lower case for
the back, and directly after it a digit for the turn. Braces open and close a branch. Blanks may stand
between tokens and not within them. Every token keeps the byte at which it starts.
-/

namespace HingedPanels

inductive Turn where
  | quarter | half | threeQuarter
  deriving DecidableEq, Repr

namespace Turn

def radians {S : Type} [Scalar S] : Turn → S
  | quarter => Scalar.quarterTurn
  | half => Scalar.halfTurn
  | threeQuarter => Scalar.halfTurn + Scalar.quarterTurn

def digit : Turn → Char
  | quarter => '0'
  | half => '1'
  | threeQuarter => '2'

def ofDigit? : Char → Option Turn
  | '0' => some quarter
  | '1' => some half
  | '2' => some threeQuarter
  | _ => none

@[simp] theorem ofDigit?_digit (t : Turn) : ofDigit? t.digit = some t := by
  cases t <;> rfl

end Turn

inductive GrammarFault where
  | unknownToken
  | badTurn
  | branchTooDeep (limit : Nat)
  deriving DecidableEq, Repr

/-- A fault at a byte offset, with the character found there unless the text has ended. -/
structure GrammarError where
  offset : Nat
  found : Option Char
  fault : GrammarFault
  deriving DecidableEq, Repr

inductive Token where
  | fold (edge : Edge) (face : Face) (turn : Turn) (offset : Nat)
  | branchOpen (offset : Nat)
  | branchClose (offset : Nat)
  deriving DecidableEq, Repr

namespace Token

def offset : Token → Nat
  | fold _ _ _ offset => offset
  | branchOpen offset => offset
  | branchClose offset => offset

def isBlank (c : Char) : Bool :=
  c = ' ' || c = '\t' || c = '\n' || c = '\x0c' || c = '\r'

def letter : Edge → Face → Char
  | .a, .front => 'A'
  | .b, .front => 'B'
  | .c, .front => 'C'
  | .d, .front => 'D'
  | .a, .back => 'a'
  | .b, .back => 'b'
  | .c, .back => 'c'
  | .d, .back => 'd'

def ofLetter? : Char → Option (Edge × Face)
  | 'A' => some (.a, .front)
  | 'B' => some (.b, .front)
  | 'C' => some (.c, .front)
  | 'D' => some (.d, .front)
  | 'a' => some (.a, .back)
  | 'b' => some (.b, .back)
  | 'c' => some (.c, .back)
  | 'd' => some (.d, .back)
  | _ => none

@[simp] theorem ofLetter?_letter (e : Edge) (f : Face) : ofLetter? (letter e f) = some (e, f) := by
  cases e <;> cases f <;> rfl

def text : Token → List Char
  | fold edge face turn _ => [letter edge face, turn.digit]
  | branchOpen _ => ['{']
  | branchClose _ => ['}']

def scan (start : Nat) : List Char → Except GrammarError (List Token)
  | [] => .ok []
  | c :: rest =>
    if isBlank c then scan (start + c.utf8Size) rest
    else if c = '{' then (scan (start + c.utf8Size) rest).map (branchOpen start :: ·)
    else if c = '}' then (scan (start + c.utf8Size) rest).map (branchClose start :: ·)
    else match ofLetter? c with
      | none => .error ⟨start, some c, .unknownToken⟩
      | some (edge, face) =>
        let next := start + c.utf8Size
        match rest with
        | [] => .error ⟨next, none, .badTurn⟩
        | d :: rest =>
          match Turn.ofDigit? d with
          | none => .error ⟨next, some d, .badTurn⟩
          | some turn => (scan (next + d.utf8Size) rest).map (fold edge face turn start :: ·)

def ofGrammar (grammar : String) : Except GrammarError (List Token) := scan 0 grammar.toList

end Token

end HingedPanels
