import HingedPanels.Hinge
import HingedPanels.Plan

/-!
A built panel and its motion. Until its window starts a panel lies flat on its parent and is not shown;
then it turns about its hinge; when its window ends it rests.
-/

namespace HingedPanels

structure Panel (S : Type) where
  /-- The pose after the motion has ended. -/
  rest : Quad S
  pivot : Option Edge
  window : Window S
  material : UInt32
  parent : Option Nat
  depth : Nat
  face : Option Face
  /-- The frame of the pivot edge on the pose at rest. -/
  hinge : Option (Hinge S)
  offset : Option Nat
  deriving DecidableEq, Repr

inductive Phase (S : Type) where
  | dormant
  | unfolding (bias : S)
  | settled
  deriving DecidableEq, Repr

namespace Phase

variable {S : Type}

def isVisible : Phase S → Bool
  | dormant => false
  | unfolding _ | settled => true

end Phase

structure Sample (S : Type) where
  index : Nat
  geometry : Quad S
  visible : Bool
  material : UInt32
  phase : Phase S
  deriving DecidableEq, Repr

namespace Panel

variable {S : Type} [Scalar S]

/-- A panel without a pivot edge rests at all times. -/
def phaseAt (p : Panel S) (time : S) : Phase S :=
  if p.pivot.isNone then .settled
  else if time < p.window.startTime then .dormant
  else if p.window.endTime ≤ time then .settled
  else .unfolding (p.window.bias time)

def angle (p : Panel S) : Phase S → S
  | .dormant => p.window.startAngle
  | .unfolding bias => p.window.angleAt bias
  | .settled => p.window.endAngle

variable [Trig S]

def geometry (p : Panel S) (phase : Phase S) : Quad S :=
  match phase, p.hinge with
  | .settled, _ => p.rest
  | _, none => p.rest
  | phase, some hinge => hinge.turn p.rest (p.angle phase)

def sample (p : Panel S) (index : Nat) (time : S) : Sample S :=
  let phase := p.phaseAt time
  ⟨index, p.geometry phase, phase.isVisible, p.material, phase⟩

/-- Builds a planned panel on its parent's pose at rest. The root takes the pose of the seed. -/
def ofPlan (seed : Quad S) (material : UInt32) (built : Array (Panel S)) (plan : Plan S) :
    Except (DegenerateEdge S) (Panel S) :=
  match plan.attachment with
  | none => .ok ⟨seed, none, plan.window, material, none, plan.depth, none, none, none⟩
  | some ⟨parent, edge, face, offset⟩ =>
    let base := (built[parent]?.map rest).getD seed
    match base.turnAbout edge (face.restTurn plan.target) with
    | .error fault => .error fault
    | .ok rest =>
      match rest.hinge edge with
      | .error fault => .error fault
      | .ok hinge =>
        .ok ⟨rest, some edge, plan.window, material, some parent, plan.depth, some face, some hinge, some offset⟩

def assemble (seed : Quad S) (material : UInt32) :
    Array (Panel S) → List (Plan S) → Except (DegenerateEdge S) (Array (Panel S))
  | built, [] => .ok built
  | built, plan :: plans =>
    match ofPlan seed material built plan with
    | .error fault => .error fault
    | .ok panel => assemble seed material (built.push panel) plans

end Panel

end HingedPanels
