import HingedPanels.Animation

namespace HingedPanels

structure Tagged (S : Type) where
  strip : Nat
  panel : Sample S
  deriving DecidableEq, Repr

inductive Split where
  | whole
  | cut (position : Nat) (before after : Split)
  deriving DecidableEq, Repr

namespace Split

def flatMap {α β : Type} (f : α → List β) : Split → List α → List β
  | whole, xs => xs.flatMap f
  | cut position before after, xs => before.flatMap f (xs.take position) ++ after.flatMap f (xs.drop position)

/-- Halves of halves down to pieces of one item, for a length below two to the power of `levels`. -/
def halves : Nat → Nat → Split
  | 0, _ => whole
  | levels + 1, length =>
    if length ≤ 1 then whole
    else cut (length / 2) (halves levels (length / 2)) (halves levels (length - length / 2))

end Split

namespace Animation

variable {S : Type} [Scalar S]

def numbered (a : Animation S) : List (Nat × Strip S) :=
  a.strips.toList.mapIdx fun i s => (i, s)

def endTime [Earliest S] (a : Animation S) : S :=
  (a.strips.toList.map (·.endTime)).foldl Scalar.later Earliest.earliest

def isSettled [Earliest S] (a : Animation S) (time : S) : Bool := a.endTime ≤ time

variable [Trig S]

def tag (time : S) (s : Nat × Strip S) : List (Tagged S) := (s.2.sample time).map (⟨s.1, ·⟩)

def frame (a : Animation S) (time : S) : List (Tagged S) := a.numbered.flatMap (tag time)

def frameBy (split : Split) (a : Animation S) (time : S) : List (Tagged S) :=
  split.flatMap (tag time) a.numbered

def frameInPieces (a : Animation S) (time : S) : List (Tagged S) :=
  frameBy (.halves a.strips.size a.strips.size) a time

end Animation

end HingedPanels
