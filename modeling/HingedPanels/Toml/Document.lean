import HingedPanels.Toml.Number

namespace HingedPanels.Toml

open Reader

def boolean : Reader Item :=
  (do text ['t', 'r', 'u', 'e']; return .boolean true) <|> (do text ['f', 'a', 'l', 's', 'e']; return .boolean false)

def simpleValue : Reader Item := ((.string ∘ String.ofList) <$> anyString) <|> boolean <|> number

/-- Items in brackets. They may stand on several lines, and a comma may follow the last. -/
def array (item : Reader Item) : Reader Item := do
  char '['
  let several := do
    let items ← separated1 (do gap; let x ← item; gap; return x) (char ',')
    let _ ← maybe (char ',')
    return items
  let items ← several <|> pure []
  gap
  char ']'
  return .array items

def entry (item : Reader Item) : Reader ((List String × String) × Item) := do
  let k ← key
  char '='
  blanks
  return (k, ← item)

def braces (item : Reader Item) : Reader Item := do
  char '{'
  let entries ← separated1 (do let e ← entry item; blanks; return e) (char ',') <|> pure []
  blanks
  char '}'
  let define (t : Table) (e : (List String × String) × Item) := t.define e.1.1 e.1.2 e.2
  match entries.foldlM define (.empty .header) with
  | some t => return .table .braces t.entries
  | none => failure

def value : Nat → Reader Item
  | 0 => simpleValue
  | depth + 1 => simpleValue <|> array (value depth) <|> braces (value depth)

inductive Line where
  | empty
  | entry (path : List String) (key : String) (item : Item)
  | header (path : List String) (key : String)
  | repeatedHeader (path : List String) (key : String)
  deriving Repr

def repeatedHeader : Reader Line := do
  text ['[', '[']
  let (path, last) ← key
  text [']', ']']
  lineTail
  return .repeatedHeader path last

def header : Reader Line := do
  char '['
  let (path, last) ← key
  char ']'
  lineTail
  return .header path last

def entryLine : Reader Line := do
  let ((path, last), item) ← entry (value nestingLimit)
  lineTail
  return .entry path last item

def line : Reader Line := do
  let l ← (do lineEnd <|> do { comment; lineEnd <|> atEnd }
              return .empty)
    <|> repeatedHeader <|> header <|> entryLine
  blanks
  return l

def lines : Reader (List Line) := do
  let _ ← maybe (char '\ufeff')
  blanks
  let ls ← many line
  atEnd
  return ls

inductive Place where
  | root
  | header (path : List String) (key : String)
  | repeatedHeader (path : List String) (key : String)
  deriving Repr

/-- The tables that are complete, and the one that is being read. -/
structure Document where
  root : Table
  place : Place
  current : Table
  deriving Repr

namespace Document

def empty : Document := ⟨.empty .header, .root, .empty .header⟩

def close (d : Document) : Option Table :=
  match d.place with
  | .root => some d.current
  | .header path key => d.root.closeHeader path key d.current
  | .repeatedHeader path key => d.root.append path key d.current

def add (d : Document) : Line → Option Document
  | .empty => some d
  | .entry path key item => (d.current.define path key item).map (⟨d.root, d.place, ·⟩)
  | .header path key => do
    let root ← d.close
    let (current, root) ← root.openHeader path key
    return ⟨root, .header path key, current⟩
  | .repeatedHeader path key => do
    let root ← d.close
    return ⟨root, .repeatedHeader path key, .empty .header⟩

end Document

def read? (source : String) : Option Table := do
  let (ls, _) ← lines source.toList
  let d ← ls.foldlM Document.add .empty
  d.close

end HingedPanels.Toml
