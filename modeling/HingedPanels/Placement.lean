import HingedPanels.Quad

namespace HingedPanels

structure Vec4 (S : Type) where
  x : S
  y : S
  z : S
  w : S
  deriving DecidableEq, Repr

structure Matrix4 (S : Type) where
  c0 : Vec4 S
  c1 : Vec4 S
  c2 : Vec4 S
  c3 : Vec4 S
  deriving DecidableEq, Repr

variable {S : Type} [Scalar S]

namespace Vec4

instance : Add (Vec4 S) := ⟨fun a b => ⟨a.x + b.x, a.y + b.y, a.z + b.z, a.w + b.w⟩⟩
instance : HMul (Vec4 S) S (Vec4 S) := ⟨fun v s => ⟨v.x * s, v.y * s, v.z * s, v.w * s⟩⟩

def toPoint (v : Vec4 S) : Vec3 S := (⟨v.x, v.y, v.z⟩ : Vec3 S) * (1 / v.w)

end Vec4

namespace Matrix4

def identity : Matrix4 S := ⟨⟨1, 0, 0, 0⟩, ⟨0, 1, 0, 0⟩, ⟨0, 0, 1, 0⟩, ⟨0, 0, 0, 1⟩⟩

def apply (m : Matrix4 S) (p : Vec3 S) : Vec3 S :=
  (m.c0 * p.x + m.c1 * p.y + m.c2 * p.z + m.c3).toPoint

end Matrix4

def Quad.transform (q : Quad S) (m : Matrix4 S) : Quad S := q.map m.apply

end HingedPanels
