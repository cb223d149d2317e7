import HingedPanels.Token
import HingedPanels.Settings

/-!
The plan of a strip: what its grammar says about every panel before any geometry is known. Panels are
numbered in the order of the text, and the root, which the grammar does not name, has number zero.
-/

namespace HingedPanels

/-- How a panel hangs on its parent, and the byte of the grammar that says so. -/
structure Attachment where
  parent : Nat
  edge : Edge
  face : Face
  offset : Nat
  deriving DecidableEq, Repr

structure Plan (S : Type) where
  attachment : Option Attachment
  /-- The angle at which the panel rests from its parent. -/
  target : S
  window : Window S
  depth : Nat
  deriving DecidableEq, Repr

/-- The panel that the next fold hangs on, and the time at which it starts. -/
structure Cursor (S : Type) where
  panel : Nat
  time : S
  deriving DecidableEq, Repr

variable {S : Type} [Scalar S]

namespace Plan

def root (startTime : S) : Plan S := ⟨none, 0, .still startTime, 0⟩

def fold (settings : Settings S) (cursor : Cursor S) (depth : Nat)
    (edge : Edge) (face : Face) (turn : Turn) (offset : Nat) : Plan S :=
  ⟨some ⟨cursor.panel, edge, face, offset⟩, turn.radians,
    .sweep cursor.time (face.foldedAngle turn.radians) settings.angularSpeed, depth⟩

end Plan

namespace Cursor

def branch (cursor : Cursor S) (settings : Settings S) : Cursor S :=
  ⟨cursor.panel, branchTime cursor.time settings.branchDelay⟩

end Cursor

end HingedPanels
