import HingedPanels.Animation.Frame

namespace HingedPanels

structure Vertex (S : Type) where
  position : Vec3 S
  material : UInt32
  deriving DecidableEq, Repr

/-- A vertex takes three coordinates and a material of four bytes each. -/
def Vertex.bytes : Nat := 16

variable {S : Type} [Scalar S]

def Sample.vertices (s : Sample S) : List (Vertex S) := s.geometry.corners.map (⟨·, s.material⟩)

def Strip.vertices [Trig S] (s : Strip S) (time : S) : List (Vertex S) :=
  (s.visible time).flatMap (·.vertices)

def frameVertices (frame : List (Tagged S)) : List (Vertex S) :=
  (frame.filter (·.panel.visible)).flatMap (·.panel.vertices)

def triangles (q : UInt32) : List UInt32 :=
  let base := q * 4
  [base, base + 1, base + 2, base, base + 2, base + 3]

/-- Vertex numbers of the triangles of as many quads. Numbers have 32 bits, and so has the count. -/
def quadIndices (count : Nat) : List UInt32 :=
  (List.range (count % UInt32.size)).flatMap fun q => triangles (.ofNat q)

end HingedPanels
