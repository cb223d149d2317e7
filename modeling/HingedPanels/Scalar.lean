/-!
The numbers that panels are measured in. Geometry and timing use nothing but the operations below, so
every definition built on them can be run in single precision and read in exact arithmetic alike.
-/

namespace HingedPanels

class Scalar (S : Type) extends Zero S, One S, NatCast S, Add S, Sub S, Mul S, Div S, Neg S, LT S, LE S where
  sqrt : S → S
  abs : S → S
  isFinite : S → Bool
  quarterTurn : S
  halfTurn : S
  /-- Lengths below this one do not define a direction. -/
  tolerance : S
  decLt : DecidableLT S
  decLe : DecidableLE S

attribute [reducible, instance] Scalar.decLt Scalar.decLe

class Trig (S : Type) where
  sin : S → S
  cos : S → S

/-- A time before every other, the end of an animation that holds nothing. -/
class Earliest (S : Type) where
  earliest : S

namespace Scalar

variable {S : Type} [Scalar S]

/-- The value is comparable, which in single precision excludes NaN and nothing else. -/
def IsNumber (x : S) : Prop := x ≤ x

instance (x : S) : Decidable (IsNumber x) := inferInstanceAs (Decidable (x ≤ x))

/-- The later of two values. A value that is no number gives way to the other one, and of two equal
values, such as the two zeros, the second counts. -/
def later (a b : S) : S :=
  if IsNumber a ∧ (b < a ∨ ¬ IsNumber b) then a else b

def clampUnit (x : S) : S :=
  if x < 0 then 0 else if 1 < x then 1 else x

end Scalar

instance : Scalar Float32 where
  zero := 0
  one := 1
  natCast := Float32.ofNat
  sqrt := Float32.sqrt
  abs := Float32.abs
  isFinite := Float32.isFinite
  quarterTurn := Float32.ofBits 0x3fc90fdb
  halfTurn := Float32.ofBits 0x40490fdb
  tolerance := Float32.ofBits 0x358637bd
  decLt := Float32.decLt
  decLe := Float32.decLe

instance : Trig Float32 where
  sin := Float32.sin
  cos := Float32.cos

instance : Earliest Float32 where
  earliest := Float32.ofBits 0xff800000

end HingedPanels
