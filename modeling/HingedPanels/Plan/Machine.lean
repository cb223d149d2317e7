import HingedPanels.Plan.Chain

/-!
The same plans without recursion into branches: a machine reads the tokens from left to right and keeps
the cursors of the chains that wait for a branch to end.
-/

namespace HingedPanels

structure Machine (S : Type) where
  cursor : Cursor S
  saved : List (Cursor S)
  plans : Array (Plan S)
  deriving DecidableEq, Repr

namespace Machine

variable {S : Type} [Scalar S]

def start (startTime : S) : Machine S := ⟨⟨0, startTime⟩, [], #[.root startTime]⟩

def add (m : Machine S) (plan : Plan S) : Machine S :=
  ⟨⟨m.plans.size, plan.window.endTime⟩, m.saved, m.plans.push plan⟩

def run (settings : Settings S) : List Token → Machine S → ChainRun S
  | [], m => ⟨m.plans, .exhausted⟩
  | .fold edge face turn offset :: rest, m =>
    let window : Window S := .sweep m.cursor.time (face.foldedAngle turn.radians) settings.angularSpeed
    run settings rest (m.add ⟨some ⟨m.cursor.panel, edge, face, offset⟩, turn.radians, window, m.saved.length⟩)
  | .branchOpen offset :: rest, m =>
    if settings.maxBranchDepth < m.saved.length + 1 then ⟨m.plans, .tooDeep offset⟩
    else run settings rest ⟨⟨m.cursor.panel, m.cursor.time + settings.branchDelay⟩, m.cursor :: m.saved, m.plans⟩
  | .branchClose offset :: rest, m =>
    match m.saved with
    | [] => ⟨m.plans, .closed offset rest⟩
    | cursor :: saved => run settings rest ⟨cursor, saved, m.plans⟩

end Machine

end HingedPanels
