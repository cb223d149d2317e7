import HingedPanels.Binary

/-!
What a TOML document holds, and how its lines may add to it. A table may be defined only once, so every
table remembers what defined it.
-/

namespace HingedPanels.Toml

inductive Origin where
  | braces
  | header
  /-- The header of a table inside it. -/
  | innerHeader
  | dottedKey
  deriving DecidableEq, Repr

inductive Item where
  | string (text : String)
  | integer (value : Int)
  | float (value : Binary.Value)
  | boolean (value : Bool)
  | moment
  | array (items : List Item)
  | table (origin : Origin) (entries : List (String × Item))
  /-- The tables under a repeated header in double brackets. -/
  | tables (items : List (List (String × Item)))
  deriving Repr

structure Table where
  origin : Origin
  entries : List (String × Item)
  deriving Repr

namespace Table

def empty (origin : Origin) : Table := ⟨origin, []⟩

def get? (t : Table) (key : String) : Option Item := t.entries.lookup key

def erase (t : Table) (key : String) : Table := ⟨t.origin, t.entries.filter (·.1 ≠ key)⟩

def put (t : Table) (key : String) (item : Item) : Table := ⟨t.origin, (t.erase key).entries ++ [(key, item)]⟩

def toItem (t : Table) : Item := .table t.origin t.entries

/-- Works on the table that a path leads to. Tables that are missing on the way come to be with the
origin `missing`, and `enter` says which others may be gone through. Of tables under a repeated header
the last is meant. -/
def within {α : Type} (missing : Origin) (enter : Origin → Bool) (work : Table → Option (α × Table)) :
    List String → Table → Option (α × Table)
  | [], t => work t
  | key :: path, t =>
    match t.get? key with
    | none => (within missing enter work path (empty missing)).map fun (a, inner) => (a, t.put key inner.toItem)
    | some (.table origin entries) =>
      if enter origin then
        (within missing enter work path ⟨origin, entries⟩).map fun (a, inner) => (a, t.put key inner.toItem)
      else none
    | some (.tables items) =>
      match items.getLast? with
      | none => none
      | some last =>
        (within missing enter work path ⟨.header, last⟩).map fun (a, inner) =>
          (a, t.put key (.tables (items.dropLast ++ [inner.entries])))
    | some _ => none

/-- A key with dots goes through tables that only keys or inner headers have defined. -/
def enteredByKey (origin : Origin) : Bool := origin = .innerHeader || origin = .dottedKey

def enteredByHeader (origin : Origin) : Bool := origin ≠ .braces

/-- Defines a key, which must be new. With dots it adds only to a table that such keys have defined. -/
def define (t : Table) (path : List String) (key : String) (item : Item) : Option Table :=
  let work (inner : Table) : Option (Unit × Table) :=
    if (path ≠ [] ∧ inner.origin ≠ .dottedKey) ∨ (inner.get? key).isSome then none
    else some ((), inner.put key item)
  (within .dottedKey enteredByKey work path t).map (·.2)

def openHeader (t : Table) (path : List String) (key : String) : Option (Table × Table) :=
  let work (parent : Table) : Option (Table × Table) :=
    match parent.get? key with
    | none => some (empty .header, parent)
    | some (.table .innerHeader entries) => some (⟨.header, entries⟩, parent.erase key)
    | some _ => none
  within .innerHeader enteredByHeader work path t

def closeHeader (t : Table) (path : List String) (key : String) (done : Table) : Option Table :=
  let work (parent : Table) : Option (Unit × Table) := some ((), parent.put key done.toItem)
  (within .innerHeader enteredByHeader work path t).map (·.2)

def append (t : Table) (path : List String) (key : String) (last : Table) : Option Table :=
  let work (parent : Table) : Option (Unit × Table) :=
    match parent.get? key with
    | none => some ((), parent.put key (.tables [last.entries]))
    | some (.tables items) => some ((), parent.put key (.tables (items ++ [last.entries])))
    | some _ => none
  (within .innerHeader enteredByHeader work path t).map (·.2)

end Table

end HingedPanels.Toml
