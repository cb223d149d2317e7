import HingedPanels.Panel

namespace HingedPanels

structure Strip (S : Type) where
  label : String
  panels : Array (Panel S)
  deriving DecidableEq, Repr

namespace Strip

variable {S : Type} [Scalar S]

def endTime [Earliest S] (s : Strip S) : S :=
  (s.panels.toList.map (·.window.endTime)).foldl Scalar.later Earliest.earliest

def isSettled [Earliest S] (s : Strip S) (time : S) : Bool := s.endTime ≤ time

def sample [Trig S] (s : Strip S) (time : S) : List (Sample S) :=
  s.panels.toList.mapIdx fun i p => p.sample i time

def visible [Trig S] (s : Strip S) (time : S) : List (Sample S) :=
  (s.sample time).filter (·.visible)

end Strip

end HingedPanels
