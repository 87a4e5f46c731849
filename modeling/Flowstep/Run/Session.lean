import Flowstep.Package.Shelf
import Flowstep.Run.Engine

/-!
Rehearsed runs.
-/
namespace Flowstep.Run

open Script (AtomicCall Value)

inductive Reply where
  | value (result : Json)
  | failed (message : String)
  | timeout (limit : Duration)
  | args
  | info
  | limit
  | add
  | closed
  | cancelled
  | unknown
  | block
deriving Inhabited

inductive Order where
  | waitPause
  | command (command : Command) (waits : Bool)
  | set (unit : String) (line : Nat)
  | clear (unit : String) (line : Nat)
  | breakpoints (unit : String)
  | pauseInfo
  | state
  | stop
  | wait
  | waitBlock (count : Nat)
  | release
deriving Inhabited

structure Standing where
  pause : Option Pause
  status : Status
deriving Inhabited

inductive Answer where
  | standing (now : Standing)
  | command (result : Except CommandError Unit) (after : Option Standing)
  | set (result : Except LineError Nat)
  | cleared (result : Except LineError Bool)
  | lines (flowLines : List Nat)
  | pauseInfo (pause : Option Pause)
  | state (status : Status)
  | done
  | outcome (outcome : Option Outcome) (status : Status)
  | blocked (reached : Bool)

inductive Wait where
  | pause
  | after (result : Except CommandError Unit)
  | finish
  | block (count : Nat)

inductive Turn where
  | paused
  | blocked
  | sleeping
  | passing
  | ended
deriving DecidableEq, Repr

structure Session where
  orders : Option (List Order) := none
  waiting : Option Wait := none
  answers : List Answer := []
  blocked : Nat := 0
  permits : Nat := 0
  passed : Nat := 0
  replies : Dict (List Reply) := ∅
  counts : Dict Nat := ∅
  calls : List Request := []
  shelf : Package.Shelf := {}
deriving Inhabited

namespace Session

def standing (p : Panel) : Standing := ⟨p.control.pause, p.control.status⟩

def answer (s : Session) (a : Answer) : Session := { s with answers := a :: s.answers }

def stop (p : Panel) : Panel := { p with control := p.control.forceStop }

def standsStill : Turn → Bool
  | .paused | .ended => true
  | _ => false

def answerTo? (turn : Turn) (p : Panel) (s : Session) : Wait → Option Answer
  | .pause => if standsStill turn then some (.standing (standing p)) else none
  | .after result =>
    if standsStill turn then some (.command result (some (standing p))) else none
  | .finish =>
    if turn = .ended then some (.outcome p.control.outcome p.control.status) else none
  | .block count =>
    if count ≤ s.blocked then some (.blocked true)
    else if turn = .ended then some (.blocked false)
    else none

inductive Step where
  | onward (p : Panel) (s : Session)
  | yield (p : Panel) (s : Session)

def await (turn : Turn) (p : Panel) (s : Session) (w : Wait) : Step :=
  match answerTo? turn p s w with
  | some a => .onward p (s.answer a)
  | none => .yield p { s with waiting := some w }

def carryOut (turn : Turn) (p : Panel) (s : Session) : Order → Step
  | .waitPause => await turn p s .pause
  | .command command waits =>
    match p.control.send command with
    | .ok control =>
      let p := { p with control }
      if waits then .yield p { s with waiting := some (.after (.ok ())) }
      else .yield p (s.answer (.command (.ok ()) none))
    | .error e =>
      if waits then await turn p s (.after (.error e))
      else .onward p (s.answer (.command (.error e) none))
  | .set unit line =>
    match p.breakpoints.set unit line with
    | .ok (g, breakpoints) => .onward { p with breakpoints } (s.answer (.set (.ok g)))
    | .error e => .onward p (s.answer (.set (.error e)))
  | .clear unit line =>
    match p.breakpoints.clear unit line with
    | .ok (there, breakpoints) => .onward { p with breakpoints } (s.answer (.cleared (.ok there)))
    | .error e => .onward p (s.answer (.cleared (.error e)))
  | .breakpoints unit => .onward p (s.answer (.lines (p.breakpoints.flowLines unit)))
  | .pauseInfo => .onward p (s.answer (.pauseInfo p.control.pause))
  | .state => .onward p (s.answer (.state p.control.status))
  | .stop =>
    let s := s.answer .done
    if turn = .ended then .onward (stop p) s else .yield (stop p) s
  | .wait => await turn p s .finish
  | .waitBlock count => await turn p s (.block count)
  | .release =>
    let s := { s.answer .done with permits := s.permits + 1 }
    if turn = .blocked then .yield p s else .onward p s

-- Carries orders out until the run has to go on. When there are no more orders, a run that has not
-- ended is stopped.
def carryOutAll (turn : Turn) (p : Panel) (s : Session) : List Order → Panel × Session
  | [] => (if turn = .ended then p else stop p, { s with orders := some [] })
  | o :: rest =>
    match carryOut turn p s o with
    | .onward p s => carryOutAll turn p s rest
    | .yield p s => (p, { s with orders := some rest })

def turn (t : Turn) (p : Panel) (s : Session) : Panel × Session :=
  let s := { s with passed := 0 }
  match s.orders, s.waiting with
  | none, _ => (p, s)
  | some orders, none => carryOutAll t p s orders
  | some orders, some w =>
    match answerTo? t p s w with
    | some a => carryOutAll t p ({ s with waiting := none }.answer a) orders
    | none => (p, s)

def turnInterval : Nat := 20000

def passing (p : Panel) (s : Session) : Panel × Session :=
  if s.passed < turnInterval then (p, { s with passed := s.passed + 1 }) else turn .passing p s

-- A blocked call: it goes when it has been released, and a call that nobody will release lets the
-- run be stopped.
def block (p : Panel) (s : Session) : Panel × Session :=
  let (p, s) := if 0 < s.permits then (p, s) else turn .blocked p s
  if 0 < s.permits then (p, { s with permits := s.permits - 1 })
  else (stop p, s)

def intArg (r : Request) (name : String) : Int :=
  match r.args.get? name with
  | some (.int n) => ((Word.ofInt? n).map Int64.toInt).getD 0
  | _ => 0

def resultOf (r : Request) : Reply → Except OperationError Json
  | .value j => .ok j
  | .failed message => .error (.failed message)
  | .timeout limit => .error (.fault (.timeout limit))
  | .args => .ok (.obj r.args)
  | .info => .ok r.info
  | .limit => .ok (.int r.limit.seconds)
  | .add => .ok (.int (intArg r "a" + intArg r "b"))
  | .closed => .error (.fault .closed)
  | .cancelled => .error (.fault .cancelled)
  | .unknown => .error (.unknown r.key)
  | .block => .ok .null

def perform (r : Request) (p : Panel) (s : Session) :
    Except OperationError Json × Panel × Session :=
  match s.replies.get? r.key with
  | none => (.error (.unknown r.key), p, s)
  | some replies =>
    let count := s.counts.getD r.key 0
    let s := { s with counts := s.counts.insert r.key (count + 1), calls := r :: s.calls }
    let reply := ((replies[count]?).or replies.getLast?).getD (.value .null)
    match reply with
    | .block =>
      let (p, s) := block p { s with blocked := s.blocked + 1 }
      (resultOf r .block, p, s)
    | reply => (resultOf r reply, p, s)

def manager : Package.Installer Session :=
  let lift {α : Type} (m : EStateM Package.Failure Package.Shelf α) :
      EStateM Package.Failure Session α := fun s =>
    match m s.shelf with
    | .ok a shelf => .ok a { s with shelf }
    | .error e shelf => .error e { s with shelf }
  { installedVersion := fun name => lift (Package.Shelf.manager.installedVersion name)
    download := fun spec dir index => lift (Package.Shelf.manager.download spec dir index)
    installOffline := fun spec dir => lift (Package.Shelf.manager.installOffline spec dir)
    install := fun spec index => lift (Package.Shelf.manager.install spec index) }

def surroundings (withPackages : Bool) : Surroundings Session where
  paused := turn .paused
  sleeping _ := turn .sleeping
  passing := passing
  perform := perform
  packages := if withPackages then some manager else none

end Session

def rehearse (config : Config) (withPackages : Bool) (loaded : Loaded) (fuel : Nat)
    (args : Dict Value) (s : Session) : Except Script.Stop (Outcome × Execution Session) :=
  match loaded.run config (Session.surroundings withPackages) fuel args
      (Execution.start config loaded.bundle s) with
  | .ok outcome w =>
    let (panel, s) := Session.turn .ended w.host.panel w.host.outside
    .ok (outcome, { w.host with panel, outside := s })
  | .error stop _ => .error stop

end Flowstep.Run
