import HingedPanels.Toml.Reader

namespace HingedPanels.Toml

open Reader

def hexValue? (c : Char) : Option Nat :=
  if '0' ≤ c ∧ c ≤ '9' then some (c.toNat - '0'.toNat)
  else if 'a' ≤ c ∧ c ≤ 'f' then some (c.toNat - 'a'.toNat + 10)
  else if 'A' ≤ c ∧ c ≤ 'F' then some (c.toNat - 'A'.toNat + 10)
  else none

def hexDigit : Reader Nat := (satisfy fun _ => true).filterMap hexValue?

def codePoint (digits : Nat) : Reader Char :=
  (count hexDigit digits).filterMap fun ds =>
    let code := ds.foldl (fun n d => 16 * n + d) 0
    if h : code.isValidChar then some (Char.ofNatAux code h) else none

def escaped? : Char → Option Char
  | 'b' => some '\x08'
  | 't' => some '\t'
  | 'n' => some '\n'
  | 'f' => some '\x0c'
  | 'r' => some '\r'
  | '"' => some '"'
  | '\\' => some '\\'
  | _ => none

def escape : Reader Char := do
  char '\\'
  (satisfy fun _ => true).filterMap escaped? <|> (do char 'u'; codePoint 4) <|> (do char 'U'; codePoint 8)

def basicChar : Reader Char := satisfy (fun c => isVisible c && c ≠ '"' && c ≠ '\\') <|> escape

def basicString : Reader (List Char) := do
  char '"'
  let cs ← many basicChar
  char '"'
  return cs

def literalChar : Reader Char := satisfy fun c => isVisible c && c ≠ '\''

def literalString : Reader (List Char) := do
  char '\''
  let cs ← many literalChar
  char '\''
  return cs

def newline : Reader (List Char) := do lineEnd; return ['\n']

/-- A backslash at the end of a line hides the line end and the blanks of the lines that follow. -/
def continuation : Reader (List Char) := do
  char '\\'
  blanks
  lineEnd
  let _ ← many (blank <|> lineEnd)
  return []

def quotes (quote : Char) (test : Nat → Bool) : Reader Nat :=
  (many1 (char quote)).filterMap fun run => if test run.length then some run.length else none

/-- A string in three quotes. A run of three to five quotes ends it, and all but the last three of them
belong to it. -/
def longString (quote : Char) (piece : Reader (List Char)) : Reader (List Char) := do
  text [quote, quote, quote]
  let _ ← maybe lineEnd
  let inner := do
    let n ← quotes quote (· ≤ 2)
    return List.replicate n quote
  let pieces ← many (piece <|> newline <|> inner)
  let n ← quotes quote fun n => 3 ≤ n && n ≤ 5
  return pieces.flatten ++ List.replicate (n - 3) quote

def anyString : Reader (List Char) :=
  longString '"' ((do return [← basicChar]) <|> continuation)
    <|> basicString
    <|> longString '\'' (do return [← literalChar])
    <|> literalString

def isBare (c : Char) : Bool := c.isAlphanum || c = '_' || c = '-'

def simpleKey : Reader String :=
  String.ofList <$> (basicString <|> literalString <|> many1 (satisfy isBare))

/-- Keys may be this long, in parts, and values nest as deeply. -/
def nestingLimit : Nat := 79

def key : Reader (List String × String) :=
  (separated1 (do blanks; let part ← simpleKey; blanks; return part) (char '.')).filterMap fun parts =>
    if parts.length ≤ nestingLimit then parts.getLast?.map fun last => (parts.dropLast, last) else none

end HingedPanels.Toml
