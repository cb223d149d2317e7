import HingedPanels.Strip
import HingedPanels.Placement
import HingedPanels.Plan.Chain

/-!
Building a strip from its description. Placement is checked before the grammar is read, and the grammar
before any panel is built; every fault names the strip.
-/

namespace HingedPanels

structure Description (S : Type) where
  label : String
  grammar : String
  seed : Quad S
  transform : Matrix4 S
  offset : Vec3 S
  startTime : S
  material : UInt32
  deriving DecidableEq, Repr

inductive Fault (S : Type) where
  | grammar (error : GrammarError)
  | degenerate (edge : DegenerateEdge S)
  | setting (fault : SettingFault S)
  | labelInUse (label : String)
  | build (label : String) (cause : Fault S)
  deriving DecidableEq, Repr

namespace Description

variable {S : Type} [Scalar S]

def standard : Description S := ⟨"strip", "", .unitSquare, .identity, 0, 0, 0⟩

def placedSeed (d : Description S) : Quad S := (d.seed.transform d.transform).translate d.offset

def checkStart (d : Description S) : Except (SettingFault S) Unit :=
  if Scalar.isFinite d.startTime then .ok () else .error (.startTime d.startTime)

variable [Trig S]

def panels (settings : Settings S) (d : Description S) : Except (Fault S) (Array (Panel S)) := do
  d.checkStart.mapError .setting
  d.placedSeed.requireFinite.mapError .degenerate
  let plans ← (Plan.ofGrammar settings d.grammar d.startTime).mapError .grammar
  (Panel.assemble d.placedSeed d.material #[] plans.toList).mapError .degenerate

end Description

def Strip.build {S : Type} [Scalar S] [Trig S] (settings : Settings S) (d : Description S) :
    Except (Fault S) (Strip S) :=
  match d.panels settings with
  | .ok panels => .ok ⟨d.label, panels⟩
  | .error cause => .error (.build d.label cause)

end HingedPanels
