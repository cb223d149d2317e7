namespace HingedPanels.Toml

abbrev Reader := StateT (List Char) Option

namespace Reader

variable {α β : Type}

def satisfy (p : Char → Bool) : Reader Char := fun
  | c :: rest => if p c then some (c, rest) else none
  | [] => none

def char (c : Char) : Reader Unit := do let _ ← satisfy (· = c)

def text : List Char → Reader Unit
  | [] => pure ()
  | c :: cs => do char c; text cs

def atEnd : Reader Unit := fun
  | [] => some ((), [])
  | _ :: _ => none

def maybe (p : Reader α) : Reader (Option α) := (some <$> p) <|> pure none

def count (p : Reader α) : Nat → Reader (List α)
  | 0 => pure []
  | n + 1 => do return (← p) :: (← count p n)

def upTo (p : Reader α) : Nat → Reader (List α)
  | 0 => pure []
  | limit + 1 => (do return (← p) :: (← upTo p limit)) <|> pure []

/-- Results in a row until the reader refuses, for a reader that takes at least one character. -/
def many (p : Reader α) : Reader (List α) := fun text => upTo p text.length text

def many1 (p : Reader α) : Reader (List α) := do return (← p) :: (← many p)

def separated1 (p : Reader α) (mark : Reader β) : Reader (List α) := do
  return (← p) :: (← many (do let _ ← mark; p))

def filterMap (p : Reader α) (f : α → Option β) : Reader β := do
  f (← p)

end Reader

/-! ## Blanks and line ends -/

open Reader

def isBlank (c : Char) : Bool := c = ' ' || c = '\t'

def blank : Reader Unit := do let _ ← satisfy isBlank

def blanks : Reader Unit := do let _ ← many blank

def lineEnd : Reader Unit := text ['\n'] <|> text ['\r', '\n']

/-- All characters but controls, of which only the tab may stand in a comment or a string. -/
def isVisible (c : Char) : Bool := c = '\t' || (' ' ≤ c && c ≠ '\x7f')

def comment : Reader Unit := do
  char '#'
  let _ ← many (satisfy isVisible)

def lineTail : Reader Unit := do
  blanks
  let _ ← maybe comment
  lineEnd <|> atEnd

/-- Blanks, comments and line ends, where a value may go on over lines. -/
def gap : Reader Unit := do
  let _ ← many (blank <|> lineEnd <|> do comment; lineEnd)

end HingedPanels.Toml
