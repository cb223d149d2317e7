import HingedPanels.Toml.Text
import HingedPanels.Toml.Item

/-!
Numbers and moments. An underscore may stand between two digits. A decimal number does not start with a
zero that another digit follows, and a whole number fits into 64 bits with a sign.
-/

namespace HingedPanels.Toml

open Reader

def digit (base : Nat) : Reader Nat := hexDigit.filterMap fun d => if d < base then some d else none

def digits (base : Nat) : Reader (List Nat) := do
  return (← digit base) :: (← many (do let _ ← maybe (char '_'); digit base))

def ofDigits (base : Nat) (ds : List Nat) : Nat := ds.foldl (fun n d => base * n + d) 0

def sign : Reader Bool := (do char '-'; return true) <|> (do char '+'; return false) <|> pure false

def signed (negative : Bool) (n : Nat) : Int := if negative then -n else n

def integer? (n : Int) : Option Item :=
  if -0x8000000000000000 ≤ n ∧ n < 0x8000000000000000 then some (.integer n) else none

/-- Zero by itself, or digits that start with another one. -/
def wholeDigits : Reader (List Nat) := (digits 10).filterMap fun ds =>
  match ds with
  | 0 :: _ :: _ => none
  | ds => some ds

def based : Reader Item := do
  char '0'
  let base ← (do char 'x'; return 16) <|> (do char 'o'; return 8) <|> (do char 'b'; return 2)
  (digits base).filterMap fun ds => integer? (ofDigits base ds)

def exponent : Reader Int := do
  char 'e' <|> char 'E'
  let negative ← sign
  return signed negative (ofDigits 10 (← digits 10))

/-- A number too large for double precision is refused, unless it is negative: that one is infinite. -/
def float? (negative : Bool) (whole fraction : List Nat) (power : Int) : Option Item :=
  match Binary.double.roundDecimal negative (ofDigits 10 (whole ++ fraction)) (power - fraction.length) with
  | .infinite false => none
  | value => some (.float value)

def decimal : Reader Item := do
  let negative ← sign
  let whole ← wholeDigits
  let fraction ← maybe do char '.'; digits 10
  let power ← maybe exponent
  match fraction, power with
  | none, none => integer? (signed negative (ofDigits 10 whole))
  | _, _ => float? negative whole (fraction.getD []) (power.getD 0)

def special : Reader Item := do
  let negative ← sign
  (do text ['i', 'n', 'f']; return .float (.infinite negative)) <|> (do text ['n', 'a', 'n']; return .float .nan)

/-! ## Dates and times -/

def field (width low high : Nat) : Reader Nat :=
  (count (digit 10) width).filterMap fun ds =>
    let n := ofDigits 10 ds
    if low ≤ n ∧ n ≤ high then some n else none

def isLeap (year : Nat) : Bool := year % 4 = 0 && (year % 100 ≠ 0 || year % 400 = 0)

def daysIn (year : Nat) : Nat → Nat
  | 2 => if isLeap year then 29 else 28
  | 4 | 6 | 9 | 11 => 30
  | _ => 31

def date : Reader Unit := do
  let year ← field 4 0 9999
  char '-'
  let month ← field 2 1 12
  char '-'
  let _ ← field 2 1 (daysIn year month)

def time : Reader Unit := do
  let _ ← field 2 0 23
  char ':'
  let _ ← field 2 0 59
  char ':'
  let _ ← field 2 0 60
  let _ ← maybe do char '.'; many1 (digit 10)

def zone : Reader Unit :=
  (do let _ ← satisfy fun c => c = 'Z' || c = 'z') <|> do
    let _ ← satisfy fun c => c = '+' || c = '-'
    let _ ← field 2 0 23
    char ':'
    let _ ← field 2 0 59

/-- A date, a time, or both with a space or a T between them and perhaps a zone. -/
def moment : Reader Item :=
  (do date
      let _ ← maybe do
        let _ ← satisfy fun c => c = 'T' || c = 't' || c = ' '
        time
        let _ ← maybe zone
      return .moment)
    <|> (do time; return .moment)

def number : Reader Item := moment <|> based <|> decimal <|> special

end HingedPanels.Toml
