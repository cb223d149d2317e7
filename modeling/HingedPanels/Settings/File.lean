import HingedPanels.Toml.Document
import HingedPanels.Notice

/-!
Settings from a TOML document. The root table may name any of the three settings; those it does not
name keep their standard value, and other keys are ignored. Settings that break a bound are refused.
-/

namespace HingedPanels

inductive LoadFault where
  | malformed
  | invalid (cause : SettingFault Float32)
  | unreadable (path : String)
  | inFile (path : String) (cause : LoadFault)
  deriving DecidableEq, Repr

def LoadFault.message : LoadFault → String
  | malformed => "UnfoldConfig: malformed TOML"
  | invalid cause => cause.message
  | unreadable path => s!"Failed to read config file {path}"
  | inFile path cause => s!"Invalid config file {path}: {cause.message}"

namespace Toml.Item

/-- A whole number is rounded once, any other number first to double precision as it is read. -/
def single? : Item → Option Float32
  | integer n => some (Binary.single.roundInt n).toFloat32
  | float x => some (x.roundTo Binary.single).toFloat32
  | _ => none

def count? : Item → Option Nat
  | integer n => if 0 ≤ n then some n.toNat else none
  | _ => none

end Toml.Item

def Toml.Table.valueOr {α : Type} (t : Table) (key : String) (standard : α)
    (convert : Item → Option α) : Option α :=
  match t.get? key with
  | none => some standard
  | some item => convert item

namespace Settings

def ofTable? (t : Toml.Table) : Option (Settings Float32) := do
  return ⟨← t.valueOr "angular_speed" standard.angularSpeed Toml.Item.single?,
    ← t.valueOr "branch_delay" standard.branchDelay Toml.Item.single?,
    ← t.valueOr "max_branch_depth" standard.maxBranchDepth Toml.Item.count?⟩

def ofToml (source : String) : Except LoadFault (Settings Float32) :=
  match (Toml.read? source).bind ofTable? with
  | none => .error .malformed
  | some settings =>
    match settings.check with
    | .ok _ => .ok settings
    | .error cause => .error (.invalid cause)

/-- Settings from the bytes of a file, if the file is there. Bytes that are no text cannot be read. -/
def ofFile (path : String) (contents : Option ByteArray) : Except LoadFault (Settings Float32) :=
  match contents.bind String.fromUTF8? with
  | none => .error (.unreadable path)
  | some source => (ofToml source).mapError (.inFile path)

def loadNotices : Except LoadFault (Settings Float32) → List (Notice Float32)
  | .ok settings => [.settingsAccepted settings]
  | .error _ => []

end Settings

end HingedPanels
