import HingedPanels.Decimal.Shortest

namespace HingedPanels

/-- The nearest multiple of `10 ^ -places`, and of two the even one. -/
def Decimal.ofPlaces (places : Nat) (mantissa : Nat) (exponent : Int) : Decimal :=
  let ratio := Binary.scale (mantissa * Nat.pow 10 places) 1 exponent
  ⟨Binary.nearest ratio.1 ratio.2, -places⟩

def writePlaces (places : Nat) (x : Float32) : String :=
  (Binary.Value.ofFloat32 x).writeWith fun mantissa exponent =>
    (Decimal.ofPlaces places mantissa exponent).write .plain

end HingedPanels
