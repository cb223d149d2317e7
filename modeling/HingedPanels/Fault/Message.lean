import HingedPanels.Strip.Build
import HingedPanels.Decimal.Shortest
import HingedPanels.Text.Quoted

namespace HingedPanels

def settingLayout : Layout := .plain

/-- Coordinates are written in full from ten thousandths up to sixteen digits, with a point in whole
numbers. -/
def coordinateLayout : Layout := ⟨fun place => -4 ≤ place ∧ place < 16, true⟩

example : writeShortest settingLayout Scalar.tolerance = "0.000001" := by decide +kernel

example : writeShortest coordinateLayout Scalar.tolerance = "1e-6" := by decide +kernel

example : writeShortest coordinateLayout (Float32.ofBits 0xbf800000) = "-1.0" := by decide +kernel

def GrammarFault.message : GrammarFault → String
  | unknownToken => "expected one of A-D, a-d, '\x7b' or '\x7d'"
  | badTurn => "expected angle code 0, 1 or 2"
  | branchTooDeep limit => s!"branch nesting exceeds maximum depth of {limit}"

def GrammarError.message (e : GrammarError) : String :=
  let found := match e.found with
    | none => "None"
    | some c => "Some(" ++ Text.quoted c ++ ")"
  s!"grammar error at offset {e.offset} (found {found}): {e.fault.message}"

def Degeneracy.message : Degeneracy Float32 → String
  | shortEdge length =>
    s!"hinge edge length {writeShortest settingLayout length} is below {writeShortest settingLayout Scalar.tolerance}"
  | collinear corner => s!"corner {corner.val} is collinear with the hinge edge"
  | notFinite corner point =>
    let coordinates := [point.x, point.y, point.z].map (writeShortest coordinateLayout)
    s!"corner {corner.val} is not finite: Point3 [" ++ ", ".intercalate coordinates ++ "]"

def degenerateText (edge : Edge) (reason : String) : String :=
  s!"degenerate geometry on edge {edge.name}: {reason}"

def DegenerateEdge.message (d : DegenerateEdge Float32) : String := degenerateText d.edge d.cause.message

def settingText (field value reason : String) : String := s!"Invalid config: {field} = {value} ({reason})"

namespace SettingFault

def field : SettingFault Float32 → String
  | angularSpeed _ => "angular_speed"
  | branchDelay _ => "branch_delay"
  | noBranches | tooManyBranches _ => "max_branch_depth"
  | startTime _ => "start_time"

def value : SettingFault Float32 → String
  | angularSpeed value | branchDelay value | startTime value => writeShortest settingLayout value
  | noBranches => "0"
  | tooManyBranches depth => toString depth

def reason : SettingFault Float32 → String
  | angularSpeed _ => "must be finite and greater than 0"
  | branchDelay _ => "must be finite and not negative"
  | noBranches => "must allow at least one level of branching"
  | tooManyBranches _ => s!"must not exceed {depthLimit}"
  | startTime _ => "must be finite"

def message (f : SettingFault Float32) : String := settingText f.field f.value f.reason

end SettingFault

def buildText (label cause : String) : String := s!"Failed to build strip '{label}': {cause}"

def Fault.message : Fault Float32 → String
  | grammar error => error.message
  | degenerate edge => edge.message
  | setting fault => fault.message
  | labelInUse label => s!"Strip label '{label}' is already in use"
  | build label cause => buildText label cause.message

end HingedPanels
