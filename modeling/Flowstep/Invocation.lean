import Flowstep.Run.Session

/-!
What the command line asks for, and what is said to the one who debugs a run.
-/
namespace Flowstep

open Project (Settings)
open Run (Answer Order)

inductive Invocation where
  | compile (project out : String) (settings : Settings)
  | run (project : String) (debug skipPackages : Bool) (args config : Option String)
deriving Inhabited

namespace Invocation

def usage : String :=
  "usage: flowstep compile PROJECT --out DIR [--process ID] [--start N] [--end N] [--debug]\n" ++
  "       flowstep run PROJECT [--args JSON] [--config FILE] [--debug] [--skip-deps]"

def parseCompile (project out : Option String) (settings : Settings) :
    List String → Option Invocation
  | [] => return .compile (← project) (← out) settings
  | "--out" :: dir :: rest | "-o" :: dir :: rest => parseCompile project (some dir) settings rest
  | "--process" :: id :: rest => parseCompile project out { settings with entry := some id } rest
  | "--start" :: n :: rest => do
    let first ← Decimal.readNat64? n
    parseCompile project out { settings with window := { settings.window with first } } rest
  | "--end" :: n :: rest => do
    let last ← Decimal.readNat64? n
    parseCompile project out { settings with window := { settings.window with last } } rest
  | "--debug" :: rest => parseCompile project out { settings with debug := true } rest
  | word :: rest => if project.isNone then parseCompile (some word) out settings rest else none

def parseRun (project : Option String) (debug skip : Bool) (args config : Option String) :
    List String → Option Invocation
  | [] => return .run (← project) debug skip args config
  | "--args" :: text :: rest => parseRun project debug skip (some text) config rest
  | "--config" :: file :: rest => parseRun project debug skip args (some file) rest
  | "--debug" :: rest => parseRun project true skip args config rest
  | "--skip-deps" :: rest => parseRun project debug true args config rest
  | word :: rest => if project.isNone then parseRun (some word) debug skip args config rest else none

def parse? : List String → Option Invocation
  | "compile" :: rest => parseCompile none none {} rest
  | "run" :: rest => parseRun none false false none none rest
  | _ => none

end Invocation

namespace Run

def Order.ofLine (line : String) : Except String Order :=
  let numbered (n : String) (order : Nat → Order) : Except String Order :=
    match Decimal.readNat64? n with
    | some n => .ok (order n)
    | none => .error "invalid digit found in string"
  match Text.words line with
  | ["continue"] | ["c"] => .ok (.command .continue true)
  | ["next"] | ["n"] => .ok (.command .next true)
  | ["stop"] => .ok .stop
  | ["state"] => .ok .state
  | ["break", unit, n] | ["b", unit, n] => numbered n (.set unit)
  | ["clear", unit, n] => numbered n (.clear unit)
  | _ => .error ("unknown command: " ++ Text.trim line)

def Command.taken : Command → String
  | .continue => "resumed"
  | .next => "stepping"

def errorText (message : String) : String := "error: " ++ message

def Order.reply : Order → Answer → String
  | .command c _, .command (.ok _) _ => c.taken
  | _, .command (.ok _) _ => ""
  | _, .command (.error e) _ => errorText e.message
  | _, .set (.ok n) => "breakpoint set at generated line " ++ toString n
  | _, .set (.error e) => errorText e.message
  | _, .cleared (.ok true) => "cleared"
  | _, .cleared (.ok false) => "no breakpoint there"
  | _, .cleared (.error e) => errorText e.message
  | _, .state s => s.word.capitalize
  | .stop, _ => "stopping"
  | _, _ => ""

def transcript : List (Except String Order) → List Answer → List String
  | [], _ => []
  | .error message :: lines, answers => errorText message :: transcript lines answers
  | .ok _ :: _, [] => []
  | .ok order :: lines, a :: answers => order.reply a :: transcript lines answers

end Run

end Flowstep
