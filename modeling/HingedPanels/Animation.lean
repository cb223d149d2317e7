import HingedPanels.Strip.Build

/-!
An animation holds strips under distinct labels. A strip keeps the number under which it was added, and
a strip that cannot be built leaves the animation as it was.
-/

namespace HingedPanels

structure Animation (S : Type) where
  settings : Settings S
  strips : Array (Strip S)
  labels : List (String × Nat)
  deriving DecidableEq, Repr

namespace Animation

variable {S : Type} [Scalar S]

def create (settings : Settings S) : Except (SettingFault S) (Animation S) :=
  match settings.check with
  | .ok _ => .ok ⟨settings, #[], []⟩
  | .error fault => .error fault

def strip? (a : Animation S) (id : Nat) : Option (Strip S) := a.strips[id]?

def idOf? (a : Animation S) (label : String) : Option Nat := a.labels.lookup label

def stripOf? (a : Animation S) (label : String) : Option (Strip S) := (a.idOf? label).bind a.strip?

def panelCount (a : Animation S) : Nat := a.strips.toList.foldr (·.panels.size + ·) 0

def insert (a : Animation S) (s : Strip S) : Animation S :=
  ⟨a.settings, a.strips.push s, a.labels ++ [(s.label, a.strips.size)]⟩

variable [Trig S]

def add (a : Animation S) (d : Description S) : Animation S × Except (Fault S) Nat :=
  if (a.idOf? d.label).isSome then (a, .error (.labelInUse d.label))
  else match Strip.build a.settings d with
    | .error fault => (a, .error fault)
    | .ok strip => (a.insert strip, .ok a.strips.size)

def addAll (a : Animation S) : List (Description S) → Animation S × List (Except (Fault S) Nat)
  | [] => (a, [])
  | d :: ds =>
    let (next, result) := a.add d
    let (last, results) := next.addAll ds
    (last, result :: results)

end Animation

end HingedPanels
