import HingedPanels.Binary

namespace HingedPanels

/-- The number `digits * 10 ^ exponent`. -/
structure Decimal where
  digits : Nat
  exponent : Int
  deriving DecidableEq, Repr

structure Layout where
  /-- Whether a number whose first digit stands at this power of ten is written out in full. -/
  inFull : Int → Bool
  /-- Whether a whole number written in full gets a point and a zero. -/
  pointed : Bool

namespace Layout

def plain : Layout := ⟨fun _ => true, false⟩

end Layout

namespace Decimal

def writeInFull (layout : Layout) (d : Decimal) : String :=
  let text := Nat.toDigits 10 d.digits
  match d.exponent with
  | .ofNat zeros =>
    String.ofList (text ++ List.replicate zeros '0' ++ if layout.pointed then ['.', '0'] else [])
  | .negSucc k =>
    let text := List.replicate (k + 2 - text.length) '0' ++ text
    let whole := text.length - (k + 1)
    String.ofList (text.take whole ++ '.' :: text.drop whole)

def place (d : Decimal) : Int := d.exponent + (Nat.toDigits 10 d.digits).length - 1

def writeScientific (d : Decimal) : String :=
  let fraction := match Nat.toDigits 10 d.digits with
    | first :: [] => [first]
    | first :: rest => first :: '.' :: rest
    | [] => []
  String.ofList (fraction ++ 'e' :: (toString d.place).toList)

def write (layout : Layout) (d : Decimal) : String :=
  if d.digits = 0 ∨ layout.inFull d.place then d.writeInFull layout else d.writeScientific

end Decimal

end HingedPanels
