import HingedPanels.Vec3

/-!
Panels are quads: four corners in order, and four edges, each from a corner to the next. An edge also
names the corner after its own two, which tells on which side of the edge the panel lies.
-/

namespace HingedPanels

inductive Edge where
  | a | b | c | d
  deriving DecidableEq, Repr

namespace Edge

def all : List Edge := [a, b, c, d]

def index : Edge → Fin 4
  | a => 0
  | b => 1
  | c => 2
  | d => 3

/-- Edges are counted in a circle. -/
def ofIndex (i : Nat) : Edge :=
  match Fin.ofNat 4 i with
  | 0 => a
  | 1 => b
  | 2 => c
  | 3 => d

def first (e : Edge) : Fin 4 := e.index

def second (e : Edge) : Fin 4 := e.index + 1

def third (e : Edge) : Fin 4 := e.index + 2

def name : Edge → String
  | a => "A"
  | b => "B"
  | c => "C"
  | d => "D"

@[simp] theorem ofIndex_index (e : Edge) : ofIndex e.index = e := by
  cases e <;> rfl

end Edge

structure Quad (S : Type) where
  c0 : Vec3 S
  c1 : Vec3 S
  c2 : Vec3 S
  c3 : Vec3 S
  deriving DecidableEq, Repr

namespace Quad

variable {S : Type}

def corner (q : Quad S) : Fin 4 → Vec3 S
  | 0 => q.c0
  | 1 => q.c1
  | 2 => q.c2
  | 3 => q.c3

def corners (q : Quad S) : List (Vec3 S) := [q.c0, q.c1, q.c2, q.c3]

def map (f : Vec3 S → Vec3 S) (q : Quad S) : Quad S := ⟨f q.c0, f q.c1, f q.c2, f q.c3⟩

@[simp] theorem corner_map (f : Vec3 S → Vec3 S) (q : Quad S) (i : Fin 4) :
    (q.map f).corner i = f (q.corner i) := by
  match i with
  | 0 | 1 | 2 | 3 => rfl

def endpoints (q : Quad S) (e : Edge) : Vec3 S × Vec3 S := (q.corner e.first, q.corner e.second)

variable [Scalar S]

def ofAxes (origin u v : Vec3 S) : Quad S := ⟨origin, origin + u, origin + u + v, origin + v⟩

def unitSquare : Quad S := ofAxes 0 ⟨1, 0, 0⟩ ⟨0, 1, 0⟩

def translate (q : Quad S) (offset : Vec3 S) : Quad S := q.map (· + offset)

/-- The unit vector square to the edges that leave the first corner, or zero if they span no area. -/
def normal (q : Quad S) : Vec3 S :=
  let n := (q.c1 - q.c0).cross (q.c3 - q.c0)
  if n.length < Scalar.tolerance then 0 else n / n.length

def center (q : Quad S) : Vec3 S := (0 + q.c0 + q.c1 + q.c2 + q.c3) / ((4 : Nat) : S)

/-- The largest distance between corners of the same number, of those distances that are numbers. -/
def maxDistance (p q : Quad S) : S :=
  (p.corners.zipWith (fun a b => (a - b).length) q.corners).foldl Scalar.later 0

def approxEq (p q : Quad S) (epsilon : S) : Bool := p.maxDistance q ≤ epsilon

end Quad

end HingedPanels
