import HingedPanels.Decimal

/-!
The shortest decimal that reads back. Every number of a binary format owns the reals that round to it.
Among the decimals in that span the search takes one of the coarsest power of ten, and of several the
nearest to the number; of two that are equally near it takes the larger.
-/

namespace HingedPanels

/-- A number and the bounds of the reals that round to it, in units of a common fraction. -/
structure Span where
  lower : Nat
  value : Nat
  upper : Nat
  den : Nat
  /-- Whether the bounds themselves round to the number. -/
  closed : Bool
  deriving DecidableEq, Repr

namespace Span

/-- The span of `mantissa * 2 ^ exponent`. Below a power of two the neighbour is only half as far,
unless the spacing cannot shrink any more. -/
def ofBinary (f : Binary.Format) (mantissa : Nat) (exponent : Int) : Span :=
  let atPower := mantissa = 1 <<< (f.precision - 1) ∧ f.least < exponent
  let unit := Binary.scale 1 4 exponent
  ⟨(4 * mantissa - if atPower then 1 else 2) * unit.1, 4 * mantissa * unit.1, (4 * mantissa + 2) * unit.1,
    unit.2, mantissa % 2 = 0⟩

def inUnits (s : Span) : Int → Span
  | .ofNat k => ⟨s.lower, s.value, s.upper, s.den * Nat.pow 10 k, s.closed⟩
  | .negSucc k =>
    let power := Nat.pow 10 (k + 1)
    ⟨s.lower * power, s.value * power, s.upper * power, s.den, s.closed⟩

def Contains (s : Span) (n : Nat) : Prop :=
  if s.closed then s.lower ≤ n * s.den ∧ n * s.den ≤ s.upper
  else s.lower < n * s.den ∧ n * s.den < s.upper

instance (s : Span) (n : Nat) : Decidable (s.Contains n) := by
  unfold Contains; infer_instance

def whole? (s : Span) : Option Nat :=
  let low := s.value / s.den
  if s.Contains low ∧ (¬ s.Contains (low + 1) ∨ 2 * (s.value % s.den) < s.den) then some low
  else if s.Contains (low + 1) then some (low + 1)
  else none

def shortest? (s : Span) : (steps : Nat) → (exponent : Int) → Option Decimal
  | 0, _ => none
  | steps + 1, exponent =>
    match (s.inUnits exponent).whole? with
    | some n => some ⟨n, exponent⟩
    | none => s.shortest? steps (exponent - 1)

end Span

namespace Binary.Value

/-- The shortest decimal of a single-precision magnitude. No number reaches `10 ^ 39`, and the least
spacing is more than `10 ^ -45`. -/
def shortest (mantissa : Nat) (exponent : Int) : Decimal :=
  if mantissa = 0 then ⟨0, 0⟩
  else ((Span.ofBinary single mantissa exponent).shortest? 84 38).getD ⟨0, 0⟩

end Binary.Value

def Binary.Value.writeWith (magnitude : Nat → Int → String) : Binary.Value → String
  | nan => "NaN"
  | infinite negative => if negative then "-inf" else "inf"
  | finite negative mantissa exponent =>
    (if negative then "-" else "") ++ magnitude mantissa exponent

def writeShortest (layout : Layout) (x : Float32) : String :=
  (Binary.Value.ofFloat32 x).writeWith fun mantissa exponent =>
    (Binary.Value.shortest mantissa exponent).write layout

end HingedPanels
