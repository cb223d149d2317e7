import HingedPanels.Scalar

/-!
Points and vectors of space. Every sum is evaluated from left to right, which in rounded arithmetic
fixes the result.
-/

namespace HingedPanels

structure Vec3 (S : Type) where
  x : S
  y : S
  z : S
  deriving DecidableEq, Repr

namespace Vec3

variable {S : Type} [Scalar S]

instance : Zero (Vec3 S) := ⟨⟨0, 0, 0⟩⟩
instance : Add (Vec3 S) := ⟨fun a b => ⟨a.x + b.x, a.y + b.y, a.z + b.z⟩⟩
instance : Sub (Vec3 S) := ⟨fun a b => ⟨a.x - b.x, a.y - b.y, a.z - b.z⟩⟩
instance : HMul (Vec3 S) S (Vec3 S) := ⟨fun v s => ⟨v.x * s, v.y * s, v.z * s⟩⟩
instance : HDiv (Vec3 S) S (Vec3 S) := ⟨fun v s => ⟨v.x / s, v.y / s, v.z / s⟩⟩

def dot (a b : Vec3 S) : S := a.x * b.x + a.y * b.y + a.z * b.z

def cross (a b : Vec3 S) : Vec3 S :=
  ⟨a.y * b.z - a.z * b.y, a.z * b.x - a.x * b.z, a.x * b.y - a.y * b.x⟩

def length (v : Vec3 S) : S := Scalar.sqrt (v.dot v)

/-- The vector scaled by the reciprocal of its length. -/
def unit (v : Vec3 S) : Vec3 S := v * (1 / v.length)

def isFinite (v : Vec3 S) : Bool :=
  Scalar.isFinite v.x && Scalar.isFinite v.y && Scalar.isFinite v.z

end Vec3

end HingedPanels
