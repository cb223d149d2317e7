import HingedPanels.Quad

/-!
A hinge is the line of an edge with a frame of three directions on it: along the edge, outward from
the panel, and out of the panel's plane. A quad turns about a hinge by rotating its corners in the
last two.
-/

namespace HingedPanels

inductive Degeneracy (S : Type) where
  | shortEdge (length : S)
  | collinear (corner : Fin 4)
  | notFinite (corner : Fin 4) (point : Vec3 S)
  deriving DecidableEq, Repr

structure DegenerateEdge (S : Type) where
  edge : Edge
  cause : Degeneracy S
  deriving DecidableEq, Repr

structure Hinge (S : Type) where
  edge : Edge
  anchor : Vec3 S
  along : Vec3 S
  outward : Vec3 S
  upward : Vec3 S
  deriving DecidableEq, Repr

variable {S : Type} [Scalar S]

def IsSound (length : S) : Prop := Scalar.isFinite length = true ∧ ¬ length < Scalar.tolerance

instance (length : S) : Decidable (IsSound length) :=
  inferInstanceAs (Decidable (_ ∧ _))

namespace Quad

/-- The first corner with a coordinate that is not finite, reported on the edge that starts there. -/
def requireFinite (q : Quad S) : Except (DegenerateEdge S) Unit :=
  match (List.finRange 4).find? (fun i => !(q.corner i).isFinite) with
  | some i => .error ⟨.ofIndex i, .notFinite i (q.corner i)⟩
  | none => .ok ()

def hinge (q : Quad S) (e : Edge) : Except (DegenerateEdge S) (Hinge S) :=
  let anchor := q.corner e.first
  let run := q.corner e.second - anchor
  if IsSound run.length then
    let along := run / run.length
    let side := along.cross (q.corner e.third - anchor)
    if IsSound side.length then
      let upward := side / side.length
      .ok ⟨e, anchor, along, (along.cross upward).unit, upward⟩
    else .error ⟨e, .collinear e.third⟩
  else .error ⟨e, .shortEdge run.length⟩

end Quad

variable [Trig S]

namespace Hinge

def turnPoint (h : Hinge S) (angle : S) (p : Vec3 S) : Vec3 S :=
  let rel := p - h.anchor
  let y := rel.dot h.outward
  let z := rel.dot h.upward
  h.anchor + h.along * rel.dot h.along
    + h.outward * (y * Trig.cos angle + z * Trig.sin angle)
    + h.upward * (z * Trig.cos angle - y * Trig.sin angle)

def turn (h : Hinge S) (q : Quad S) (angle : S) : Quad S := q.map (h.turnPoint angle)

end Hinge

def Quad.turnAbout (q : Quad S) (e : Edge) (angle : S) : Except (DegenerateEdge S) (Quad S) :=
  match q.hinge e with
  | .ok h => .ok (h.turn q angle)
  | .error fault => .error fault

end HingedPanels
