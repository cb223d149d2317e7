import HingedPanels.Scalar

/-!
When a panel turns, and how far. All panels turn at one angular speed, so a window follows from its
start and its angles. Angles are measured from the panel's pose at rest.
-/

namespace HingedPanels

inductive Face where
  | front | back
  deriving DecidableEq, Repr

namespace Face

def name : Face → String
  | front => "Front"
  | back => "Back"

variable {S : Type} [Scalar S]

/-- The angle at which a panel that will rest `target` away from its parent lies flat on it. -/
def foldedAngle (f : Face) (target : S) : S :=
  match f with
  | front => -target
  | back => target

/-- The turn that takes the parent's pose to the panel's pose at rest. -/
def restTurn (f : Face) (target : S) : S := -f.foldedAngle target

end Face

structure Window (S : Type) where
  startTime : S
  endTime : S
  startAngle : S
  endAngle : S
  deriving DecidableEq, Repr

variable {S : Type} [Scalar S]

def sweepTime (startAngle endAngle speed : S) : S := Scalar.abs (startAngle - endAngle) / speed

def branchTime (time delay : S) : S := time + delay

namespace Window

def sweep (startTime startAngle speed : S) : Window S :=
  ⟨startTime, startTime + sweepTime startAngle 0 speed, startAngle, 0⟩

def still (time : S) : Window S := ⟨time, time, 0, 0⟩

/-- The share of the window that has passed. A window without length is a step at its start. -/
def bias (w : Window S) (time : S) : S :=
  let length := w.endTime - w.startTime
  if length ≤ 0 then if w.startTime ≤ time then 1 else 0
  else Scalar.clampUnit ((time - w.startTime) / length)

def angleAt (w : Window S) (bias : S) : S := w.startAngle + bias * (w.endAngle - w.startAngle)

end Window

end HingedPanels
