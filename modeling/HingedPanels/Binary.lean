namespace HingedPanels.Binary

/-- A number, or what stands for none. The finite ones are `± mantissa * 2 ^ exponent`. -/
inductive Value where
  | nan
  | infinite (negative : Bool)
  | finite (negative : Bool) (mantissa : Nat) (exponent : Int)
  deriving DecidableEq, Repr

/-- The numbers with at most `precision` bits, whole multiples of `2 ^ least` and below `2 ^ limit`. -/
structure Format where
  precision : Nat
  least : Int
  limit : Int
  deriving DecidableEq, Repr

def single : Format := ⟨24, -149, 128⟩
def double : Format := ⟨53, -1074, 1024⟩

def scale (num den : Nat) : Int → Nat × Nat
  | .ofNat k => (num <<< k, den)
  | .negSucc k => (num, den <<< (k + 1))

/-- The nearest whole number, and of two the even one. -/
def nearest (num den : Nat) : Nat :=
  let low := num / den
  let twice := 2 * (num % den)
  if twice < den then low
  else if den < twice then low + 1
  else if low % 2 = 0 then low else low + 1

def magnitude (num den : Nat) : Int :=
  let guess : Int := (num.log2 : Int) - den.log2
  let (n, d) := scale num den (-guess)
  if d ≤ n then guess else guess - 1

namespace Format

def spacing (f : Format) (num den : Nat) : Int := max f.least (magnitude num den - (f.precision - 1))

def round (f : Format) (negative : Bool) (num den : Nat) : Value :=
  if num = 0 then .finite negative 0 f.least
  else
    let exponent := f.spacing num den
    let (n, d) := scale num den (-exponent)
    let mantissa := nearest n d
    if f.limit ≤ magnitude mantissa 1 + exponent ∧ mantissa ≠ 0 then .infinite negative
    else .finite negative mantissa exponent

/-- The format's number nearest to a decimal. A decimal with its first digit at or above the place of
`limit` is too large, and one with its first digit below the place of `least` is next to nothing, so
that its power of ten need not be computed. -/
def roundDecimal (f : Format) (negative : Bool) (digits : Nat) (exponent : Int) : Value :=
  let places := exponent + (Nat.toDigits 10 digits).length
  if digits = 0 then f.round negative 0 1
  else if f.limit < places then .infinite negative
  else if places < f.least then f.round negative 0 1
  else match exponent with
    | .ofNat k => f.round negative (digits * Nat.pow 10 k) 1
    | .negSucc k => f.round negative digits (Nat.pow 10 (k + 1))

def roundInt (f : Format) (n : Int) : Value := f.round (n < 0) n.natAbs 1

end Format

namespace Value

def roundTo (f : Format) : Value → Value
  | nan => nan
  | infinite negative => infinite negative
  | finite negative mantissa exponent =>
    let (n, d) := scale mantissa 1 exponent
    f.round negative n d

/-- The word of a value of the single format. The field of the exponent counts from the least one, and
the top bit of a full mantissa adds one to it. -/
def toFloat32 : Value → Float32
  | nan => .ofBits 0x7fc00000
  | infinite negative => .ofBits (if negative then 0xff800000 else 0x7f800000)
  | finite negative mantissa exponent =>
    let sign := if negative then 0x80000000 else 0
    .ofBits (.ofNat (sign + (exponent - single.least).toNat <<< 23 + mantissa))

def ofFloat32 (x : Float32) : Value :=
  let bits := x.toBits.toNat
  let negative := 0x80000000 ≤ bits
  let field : Nat := bits >>> 23 % 0x100
  let low : Nat := bits % 0x800000
  if field = 255 then if low = 0 then infinite negative else nan
  else if field = 0 then finite negative low single.least
  else finite negative (0x800000 + low) (single.least + field - 1)

end Value

end HingedPanels.Binary
