import Flowstep.Package.Resolver
import Flowstep.Run.Config
import Flowstep.Run.Control
import Flowstep.Run.Operation
import Flowstep.Script.Interp
import Flowstep.Script.Parser

/-!
Runs of compiled projects. Before every line the run looks whether it has been stopped and, when it is debugged, whether
it has to pause.
-/
namespace Flowstep.Run

open Code (LineMap)
open Project (Bundle UnitCode)
open Report (Event Level Kind)
open Script (AtomicCall Error ErrorKind Host Place Program Scope Stop Value World)

structure Surroundings (ε : Type) where
  -- The run has paused. It goes on when there is a command or when it has been stopped.
  paused : Panel → ε → Panel × ε
  sleeping : Float → Panel → ε → Panel × ε
  passing : Panel → ε → Panel × ε
  perform : Request → Panel → ε → Except OperationError Json × Panel × ε
  packages : Option (Package.Installer ε) := none

structure Execution (ε : Type) where
  panel : Panel
  events : List Event := []
  units : List String := []
  -- The run steps: it pauses as soon as at most so many units are active.
  stepDepth : Option Nat := none
  entryPending : Bool := false
  outside : ε

namespace Execution

variable {ε : Type}

def add (x : Execution ε) (level : Level) (kind : Kind) (data : Json) : Execution ε :=
  let seq := match x.events with
    | [] => 0
    | last :: _ => last.seq + 1
  { x with events := ⟨seq, level, kind, data⟩ :: x.events }

def after (x : Execution ε) (f : Panel → ε → Panel × ε) : Execution ε :=
  let (panel, outside) := f x.panel x.outside
  { x with panel, outside }

def enter (x : Execution ε) (unit : String) : Execution ε := { x with units := unit :: x.units }

def leave (x : Execution ε) : Execution ε := { x with units := x.units.tail }

end Execution

structure Loaded where
  bundle : Bundle
  programs : Dict Program

inductive StartError where
  | unknownUnit (id : String)
  | load (unit : String) (error : Error)

def StartError.message : StartError → String
  | .unknownUnit id => "Unknown unit `" ++ id ++ "`"
  | .load unit error => "Load error in unit `" ++ unit ++ "`: " ++ error.kind.message

def Loaded.ofBundle (bundle : Bundle) : Except StartError Loaded := do
  if !bundle.units.contains bundle.entry then throw (.unknownUnit bundle.entry)
  let programs ← bundle.units.entries.mapM fun e => do
    return (e.1, ← (Program.parse e.2.source).mapError (.load e.1))
  return ⟨bundle, ⟨programs⟩⟩

abbrev Act (ε : Type) := EStateM Stop (World (Execution ε))

def globalsUnit : String := "__globals__"

def maxSleep : Float := 86400

def outputNames (u : UnitCode) : List String := (Code.outputs u.params).map (·.name)

namespace Act

variable {ε α : Type}

def execution : Act ε (Execution ε) := do return (← get).host

def update (f : Execution ε → Execution ε) : Act ε Unit :=
  modify fun w => { w with host := f w.host }

def halt : Act ε α := throw (Stop.ofKind .halted)

def emit (level : Level) (kind : Kind) (data : Json) : Act ε Unit := update (·.add level kind data)

def emitCode (level : Level) (fields : List (String × Json)) : Act ε Unit :=
  emit level .code (.ofFields fields)

def wait (f : Panel → ε → Panel × ε) : Act ε Unit := update (·.after f)

def setControl (f : Control → Control) : Act ε Unit :=
  update fun x => { x with panel := { x.panel with control := f x.panel.control } }

def haltIfStopped : Act ε Unit := do
  if (← execution).panel.control.stopped then halt

def leaving (m : Act ε α) : Act ε α := fun w =>
  match m w with
  | .ok a w => .ok a { w with host := w.host.leave }
  | .error stop w => .error stop { w with host := w.host.leave }

def attempt (m : Act ε α) : Act ε (Except Error α) := fun w =>
  match m w with
  | .ok a w => .ok (.ok a) w
  | .error (.error e) w => .ok (.error e) w
  | .error stop w => .error stop w

end Act

open Act

section

variable {ε : Type} (config : Config) (outside : Surroundings ε)

-- The variables shown at a pause: the globals and the locals, which count where both have a name.
-- Names that start with two underscores are the system's own.
def shownVariables (globals locals : Dict Value) : Dict Shown :=
  ((globals.union locals).filter fun name _ => !Text.startsWith name "__").map fun v =>
    ⟨v.toJson, v.typeName⟩

def resume (p : Pause) (control : Control) : Act ε Unit := do
  if control.stopped then
    setControl Control.haltInPause
    halt
  else match control.command with
    | none => throw .exhausted
    | some command =>
      setControl Control.dropCommand
      update fun x => { x with stepDepth := match command with
        | .continue => none
        | .next => some x.units.length }
      emit .info .resumed (.ofFields [("unit", .str p.unit), ("line", .int p.flowLine),
        ("command", .str command.word)])

def pause (p : Pause) : Act ε Unit := do
  setControl (·.enterPause p)
  emit .info .paused p.toJson
  wait outside.paused
  resume p (← execution).panel.control

def reasonOf (x : Execution ε) (unit : String) (line : Nat) : Option Reason :=
  if x.entryPending || x.panel.breakpoints.contains unit line then some .breakpoint
  else match x.stepDepth with
    | some depth => if x.units.length ≤ depth then some .step else none
    | none => none

def checkpoint (line : Nat) (scope : Scope) : Act ε Unit := do
  haltIfStopped
  if config.debug then
    let x ← execution
    match x.panel.breakpoints.flowLine? scope.unit line with
    | none => return ()
    | some flowLine =>
      let reason := reasonOf x scope.unit line
      update fun x => { x with entryPending := false }
      match reason with
      | none => return ()
      | some reason =>
        let shown := shownVariables (← get).globals scope.locals
        pause outside ⟨scope.unit, flowLine, line, reason, shown⟩

def sleep (seconds : Float) : Act ε Unit := do
  haltIfStopped
  if seconds.isFinite && 0 < seconds then
    wait (outside.sleeping (if seconds < maxSleep then seconds else maxSleep))
    haltIfStopped

def delay (sleep : Float → Act ε Unit) (seconds : Option Value) : Act ε Unit :=
  match seconds.bind Value.asFloat? with
  | some x => sleep x
  | none => return ()

def perform (r : Request) : Act ε (Except OperationError Json) := fun w =>
  let x := w.host
  let (result, panel, env) := outside.perform r x.panel x.outside
  .ok result { w with host := { x with panel := panel, outside := env } }

def operate (sleep : Float → Act ε Unit) (call : AtomicCall) : Act ε Value := do
  let flag (name : String) : Bool := ((call.kwarg? name).map Value.truthy).getD false
  let request := Request.ofCall (.ofSeconds config.callTimeout) call
  let about (status : String) : List (String × Json) :=
    [("status", .str status), ("key", .str call.key), ("unit", .str call.unit),
      ("line", (request.info.item? 0).getD .null)]
  delay sleep (call.kwarg? "__delay_before__")
  wait outside.passing
  haltIfStopped
  if !flag "__in_retry__" then emitCode .info (about "start")
  let result ← perform outside request
  haltIfStopped
  match result with
  | .ok value =>
    if flag "__print_result__" then emitCode .info (about "result" ++ [("result", value)])
    delay sleep (call.kwarg? "__delay_after__")
    return .ofJson value
  | .error e =>
    if (call.kwarg? "__on_error__").map Value.display = some "skip" then
      emitCode .warn (about "skip" ++ [("error", .str e.kind.message)])
      return .none
    else throw (Stop.ofKind e.kind)

def unitOf? (call : AtomicCall) : Option String :=
  call.args.keywords.findSome? fun e =>
    match e.2 with
    | .unit id _ => if e.1 == "process" || e.1 == "content" then some id else none
    | _ => none

def unitArguments (call : AtomicCall) : Dict Value :=
  Dict.ofList (call.args.keywords.filter fun e =>
    !Text.startsWith e.1 "__" && match e.2 with
      | .unit _ _ => false
      | _ => true)

def unitResult (u : UnitCode) (outputs : Dict Value) : Value :=
  match (outputNames u).map fun name => outputs.getD name .none with
  | [] => .none
  | [v] => v
  | vs => .list vs

def callUnit (loaded : Loaded) (host : Host (Execution ε)) (fuel : Nat) (id : String)
    (call : AtomicCall) : Act ε Value :=
  match loaded.programs.get? id, loaded.bundle.units.get? id with
  | some program, some u => do
    update (·.enter id)
    let outputs ← leaving (program.run host id fuel (unitArguments call))
    return unitResult u outputs
  | _, _ => throw (Stop.ofKind (.noModule id))

def callAtomic (loaded : Loaded) (inner : Host (Execution ε)) (fuel : Nat)
    (sleep : Float → Act ε Unit) (call : AtomicCall) : Act ε Value := do
  haltIfStopped
  match unitOf? call with
  | some id => callUnit loaded inner fuel id call
  | none => operate config outside sleep call

def serve {α : Type} (p : Act ε α) : Act ε α := do
  wait outside.passing
  p

def emitText (text : String) : Act ε Unit :=
  emitCode .info [("status", .str "print"), ("text", .str text)]

def engineHost (loaded : Loaded) (fuel : Nat) : Nat → Host (Execution ε)
  | 0 =>
    { checkpoint := fun _ _ => throw .exhausted
      callAtomic := fun _ => throw .exhausted
      report := fun _ _ => throw .exhausted
      sleep := fun _ => throw .exhausted
      print := fun _ => throw .exhausted }
  | depth + 1 =>
    { checkpoint := fun line scope => serve outside (checkpoint config outside line scope)
      callAtomic := fun call =>
        serve outside (callAtomic config outside loaded (engineHost loaded fuel depth) fuel
          (fun seconds => serve outside (sleep outside seconds)) call)
      report := fun level record => serve outside (emit level .code record.toJson)
      sleep := fun seconds => serve outside (sleep outside seconds)
      print := fun text => serve outside (emitText text) }

def loadGlobals (host : Host (Execution ε)) (fuel : Nat) : List (String × String) → Act ε Unit
  | [] => return ()
  | (name, code) :: rest => do
    match Program.parse ("gv[" ++ Json.quoted name ++ "] = " ++ code ++ "\n") with
    | .error e => throw (.error e)
    | .ok program =>
      let _ ← program.run host globalsUnit fuel ∅
      loadGlobals host fuel rest

def runEntry (loaded : Loaded) (host : Host (Execution ε)) (fuel : Nat) (args : Dict Value) :
    Act ε (Dict Value) := do
  loadGlobals host fuel loaded.bundle.globals.entries
  let entry := loaded.bundle.entry
  match loaded.programs.get? entry with
  | none => throw (Stop.ofKind (.noModule entry))
  | some program =>
    update (·.enter entry)
    program.run host entry fuel args

def entryOutputs (bundle : Bundle) (outputs : Dict Value) : Dict Json :=
  let names := ((bundle.units.get? bundle.entry).map outputNames).getD []
  (outputs.filter fun name _ => names.isEmpty || names.contains name).map Value.toJson

-- What is told of a failure. It is located at the innermost line that comes from the flow.
def failureReport (config : Config) (b : Breakpoints) (e : Error) : FailureReport :=
  let trace := e.trace.map fun (p : Place) =>
    (⟨p.unit, p.line, b.flowLine? p.unit p.line⟩ : FailurePlace)
  let located := trace.find? (·.flowLine.isSome)
  { reason := e.kind.summary config.locale, unit := located.map (·.unit),
    flowLine := located.bind (·.flowLine), trace }

def resolved (r : Package.Resolver ε) (missing : Option FailureReport) : Act ε (Option FailureReport) := do
  update fun x => { x with outside := r.manager }
  r.tips.reverse.forM fun t => emit .info .tip t.toJson
  return missing

def resolvePackages (bundle : Bundle) : Act ε (Option FailureReport) :=
  match outside.packages with
  | none => return none
  | some manager => do
    match Package.Resolver.resolveAll manager config.cacheDir bundle.requirements
        { manager := (← execution).outside } with
    | .ok _ r => resolved r none
    | .error e r => resolved r (some { reason := "Dependency error: " ++ e.message })

def Loaded.prepare (loaded : Loaded) : Act ε (Option FailureReport) := do
  setControl Control.start
  emit .info .taskStart (.ofFields [("project", .str loaded.bundle.projectId),
    ("name", .str loaded.bundle.name), ("entry", .str loaded.bundle.entry)])
  resolvePackages config outside loaded.bundle

def Loaded.execute (loaded : Loaded) (host : Host (Execution ε)) (fuel : Nat) (args : Dict Value) :
    Act ε Outcome := do
  let result ← attempt (runEntry loaded host fuel args)
  wait outside.passing
  match result with
  | .ok outputs => return .succeeded (entryOutputs loaded.bundle outputs)
  | .error e =>
    let panel := (← execution).panel
    if e.isHalted || panel.control.stopped then return .cancelled
    else return .failed (failureReport config panel.breakpoints e)

def emitOutcome : Outcome → Act ε Unit
  | .succeeded outputs => emit .info .taskEnd (.ofFields [("outputs", .obj outputs)])
  | .cancelled => emit .warn .taskCancelled (.ofFields [])
  | .failed report => emit .error .taskError report.toJson

def conclude (outcome : Outcome) : Act ε Outcome := do
  emitOutcome outcome
  setControl (·.finish outcome)
  return outcome

-- Runs a loaded project: how it ends, and the state it leaves. Nothing comes out of a run that
-- leaves the range of a machine word or uses its fuel up.
def Loaded.run (loaded : Loaded) (fuel : Nat) (args : Dict Value) : Act ε Outcome := do
  match ← loaded.prepare config outside with
  | some report => conclude (.failed report)
  | none =>
    let host := engineHost config outside loaded fuel fuel
    conclude (← loaded.execute config outside host fuel args)

def Execution.start (bundle : Bundle) (env : ε) : World (Execution ε) :=
  { globals := ∅
    host := { panel := { breakpoints := .ofBundle bundle },
              entryPending := config.debug && config.breakOnEntry, outside := env } }

end

end Flowstep.Run
