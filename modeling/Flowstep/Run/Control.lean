import Flowstep.Run.Breakpoint

/-!
The state that a run shares with the people who debug it: its status, where it is paused, the
command it is given and how it ended.
-/
namespace Flowstep.Run

inductive Status where
  | init
  | running
  | paused
  | succeeded
  | cancelled
  | failed
deriving DecidableEq, Repr, Inhabited

namespace Status

def word : Status → String
  | .init => "init"
  | .running => "running"
  | .paused => "paused"
  | .succeeded => "succeeded"
  | .cancelled => "cancelled"
  | .failed => "failed"

def isTerminal : Status → Bool
  | .succeeded | .cancelled | .failed => true
  | _ => false

end Status

inductive Reason where
  | breakpoint
  | step
deriving DecidableEq, Repr, Inhabited

def Reason.word : Reason → String
  | .breakpoint => "breakpoint"
  | .step => "step"

structure Shown where
  value : Json
  typeName : String
deriving Inhabited

structure Pause where
  unit : String
  flowLine : Nat
  programLine : Nat
  reason : Reason
  shown : Dict Shown
deriving Inhabited

def Pause.toJson (p : Pause) : Json :=
  .ofFields [("unit", .str p.unit), ("flowLine", .int p.flowLine),
    ("generatedLine", .int p.programLine), ("reason", .str p.reason.word),
    ("variables", .obj (p.shown.map fun v =>
      .ofFields [("value", v.value), ("type", .str v.typeName)]))]

structure FailurePlace where
  unit : String
  line : Nat
  flowLine : Option Nat
deriving DecidableEq, Repr, Inhabited

structure FailureReport where
  reason : String
  unit : Option String := none
  flowLine : Option Nat := none
  trace : List FailurePlace := []
deriving DecidableEq, Repr, Inhabited

def natOrNull : Option Nat → Json
  | some n => .int n
  | none => .null

def FailureReport.fields (f : FailureReport) : List (String × Json) :=
  [("reason", .str f.reason), ("unit", Package.Requirement.textOrNull f.unit),
    ("flowLine", natOrNull f.flowLine),
    ("trace", .arr (f.trace.map fun p =>
      .obj ⟨[("unit", .str p.unit), ("line", .int p.line), ("flowLine", natOrNull p.flowLine)]⟩))]

def FailureReport.toJson (f : FailureReport) : Json := (Json.ofFields f.fields).canonical

inductive Outcome where
  | succeeded (outputs : Dict Json)
  | cancelled
  | failed (report : FailureReport)
deriving Inhabited

def Outcome.status : Outcome → Status
  | .succeeded _ => .succeeded
  | .cancelled => .cancelled
  | .failed _ => .failed

def Outcome.toJson : Outcome → Json
  | .succeeded outputs => .obj ⟨[("status", .str "succeeded"), ("outputs", .obj outputs)]⟩
  | .cancelled => .obj ⟨[("status", .str "cancelled")]⟩
  | .failed report => .obj ⟨("status", .str "failed") :: report.fields⟩

inductive Command where
  | continue
  | next
deriving DecidableEq, Repr, Inhabited

def Command.word : Command → String
  | .continue => "continue"
  | .next => "next"

inductive CommandError where
  | notPaused
  | finished
deriving DecidableEq, Repr

def CommandError.message : CommandError → String
  | .notPaused => "Execution is not paused"
  | .finished => "Execution has already finished"

structure Control where
  status : Status := .init
  command : Option Command := none
  pause : Option Pause := none
  outcome : Option Outcome := none
  stopped : Bool := false
deriving Inhabited

namespace Control

def start (c : Control) : Control := { c with status := .running }

def enterPause (c : Control) (p : Pause) : Control :=
  { c with status := .paused, pause := some p, command := none }

def dropCommand (c : Control) : Control := { c with command := none }

def haltInPause (c : Control) : Control := { c with status := .running, pause := none }

def finish (c : Control) (o : Outcome) : Control :=
  { c with status := o.status, pause := none, outcome := some o }

def send (c : Control) (command : Command) : Except CommandError Control :=
  if c.status = .paused then
    .ok { c with command := some command, status := .running, pause := none }
  else if c.status.isTerminal then .error .finished
  else .error .notPaused

def forceStop (c : Control) : Control := { c with stopped := true }

end Control

structure Panel where
  control : Control := {}
  breakpoints : Breakpoints
deriving Inhabited

end Flowstep.Run
