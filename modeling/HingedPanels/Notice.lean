import HingedPanels.Animation
import HingedPanels.Decimal.Places
import HingedPanels.Fault.Message

/-!
What building reports on the way, in the order in which it happens. Every operation has a function of
the same arguments that gives its notices.
-/

namespace HingedPanels

inductive Notice (S : Type) where
  | panelPlanned (index : Nat) (attachment : Attachment) (target startTime endTime : S)
  | strayClose (offset ignored : Nat)
  | planned (panels tokens : Nat)
  | built (label : String) (panels : Nat) (startTime endTime : S)
  | buildFailed (fault : Fault S)
  | batchBuilt (made requested panels : Nat)
  | settingsAccepted (settings : Settings S)
  deriving DecidableEq, Repr

inductive Severity where
  | error | warning | info | debug
  deriving DecidableEq, Repr

namespace Severity

def rank : Severity → Nat
  | error => 0
  | warning => 1
  | info => 2
  | debug => 3

def name : Severity → String
  | error => "ERROR"
  | warning => "WARN"
  | info => "INFO"
  | debug => "DEBUG"

end Severity

namespace Notice

variable {S : Type}

def severity : Notice S → Severity
  | buildFailed _ => .error
  | strayClose _ _ => .warning
  | built _ _ _ _ | batchBuilt _ _ _ | settingsAccepted _ => .info
  | panelPlanned _ _ _ _ _ | planned _ _ => .debug

def upTo (severity : Severity) (notices : List (Notice S)) : List (Notice S) :=
  notices.filter fun n => n.severity.rank ≤ severity.rank

end Notice

def noticePlaces : Nat := 3

def Notice.text : Notice Float32 → String
  | panelPlanned index a target startTime endTime =>
    s!"[parse_chain] Panel {index} on {a.edge.name} of {a.parent} " ++
      s!"({a.face.name}, {writePlaces noticePlaces target} rad): " ++
      s!"{writePlaces noticePlaces startTime}s -> {writePlaces noticePlaces endTime}s"
  | strayClose offset ignored =>
    s!"[parse_grammar] Unmatched '\x7d' at offset {offset}" ++
      if ignored = 0 then "" else s!" ends the strip, ignoring {ignored} trailing tokens"
  | planned panels tokens =>
    s!"[parse_grammar] Planned {panels} panels from {tokens} tokens"
  | built label panels startTime endTime =>
    s!"[build_strip] Built strip '{label}': {panels} panels, " ++
      s!"unfolding {writePlaces noticePlaces startTime}s -> {writePlaces noticePlaces endTime}s"
  | buildFailed fault => s!"[add_strip] {fault.message}"
  | batchBuilt made requested panels =>
    s!"[add_strips] Built {made}/{requested} strips ({panels} panels total)"
  | settingsAccepted settings =>
    s!"[UnfoldConfig] Validated: angular_speed={writeShortest settingLayout settings.angularSpeed} rad/s, " ++
      s!"branch_delay={writeShortest settingLayout settings.branchDelay}s, max_branch_depth={settings.maxBranchDepth}"

variable {S : Type} [Scalar S]

/-- A panel is reported as soon as a chain has added it. -/
def ChainRun.followNotices (settings : Settings S) (tokens : List Token) (cursor : Cursor S) (depth : Nat)
    (plans : Array (Plan S)) : List (Notice S) :=
  match tokens with
  | [] => []
  | .fold edge face turn offset :: rest =>
    let plan := Plan.fold settings cursor depth edge face turn offset
    .panelPlanned plans.size ⟨cursor.panel, edge, face, offset⟩ plan.target plan.window.startTime plan.window.endTime ::
      followNotices settings rest ⟨plans.size, plan.window.endTime⟩ depth (plans.push plan)
  | .branchOpen _ :: rest =>
    if settings.maxBranchDepth < depth + 1 then []
    else
      -- A branch that is not closed leaves no tokens, so the outer chain has nothing to report after it.
      let branch := follow settings rest (cursor.branch settings) (depth + 1) plans
      followNotices settings rest (cursor.branch settings) (depth + 1) plans ++
        followNotices settings branch.stop.rest cursor depth branch.plans
  | .branchClose _ :: _ => []
termination_by tokens.length
decreasing_by
  · simp
  · simp
  · exact Nat.lt_succ_of_le (rest_length_follow_le settings (cursor.branch settings) (depth + 1) plans rest)

/-- The place of the brace that closed the first chain, which is looked up before the token where the chain stopped. -/
def strayOffset (grammar : String) (tokens : List Token) (next : Nat) : Nat :=
  match tokens[next - 1]? with
  | some (.branchClose offset) => offset
  | _ => grammar.utf8ByteSize

def Plan.notices (settings : Settings S) (grammar : String) (startTime : S) : List (Notice S) :=
  match Token.ofGrammar grammar with
  | .error _ => []
  | .ok tokens =>
    let run := ChainRun.ofTokens settings startTime tokens
    let next := run.stop.next tokens
    ChainRun.followNotices settings tokens ⟨0, startTime⟩ 0 #[.root startTime] ++
      match run.stop with
      | .tooDeep _ => []
      | .closed _ _ => [.strayClose (strayOffset grammar tokens next) (tokens.length - next),
          .planned run.plans.size tokens.length]
      | .exhausted => [.planned run.plans.size tokens.length]

def Settings.notices (settings : Settings S) : List (Notice S) :=
  match settings.check with
  | .ok _ => [.settingsAccepted settings]
  | .error _ => []

variable [Trig S] [Earliest S]

/-- A strip is planned once its start and its seed are sound. -/
def Strip.notices (settings : Settings S) (d : Description S) : List (Notice S) :=
  match d.checkStart, d.placedSeed.requireFinite with
  | .ok _, .ok _ =>
    Plan.notices settings d.grammar d.startTime ++
      match Strip.build settings d with
      | .ok strip => [.built strip.label strip.panels.size d.startTime strip.endTime]
      | .error _ => []
  | _, _ => []

namespace Animation

def addNotices (a : Animation S) (d : Description S) : List (Notice S) :=
  if (a.idOf? d.label).isSome then []
  else Strip.notices a.settings d ++
    match Strip.build a.settings d with
    | .ok _ => []
    | .error fault => [.buildFailed fault]

def eachNotices (a : Animation S) : List (Description S) → List (Notice S)
  | [] => []
  | d :: ds => a.addNotices d ++ (a.add d).1.eachNotices ds

def addAllNotices (a : Animation S) (ds : List (Description S)) : List (Notice S) :=
  let (last, results) := a.addAll ds
  a.eachNotices ds ++ [.batchBuilt (results.countP (·.isOk)) results.length last.panelCount]

end Animation

end HingedPanels
