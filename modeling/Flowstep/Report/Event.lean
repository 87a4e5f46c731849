import Flowstep.Json.Basic

/-!
What a running project reports.
-/
namespace Flowstep.Report

inductive Level where
  | debug
  | info
  | warn
  | error
deriving DecidableEq, Repr

def Level.word : Level → String
  | .debug => "debug"
  | .info => "info"
  | .warn => "warn"
  | .error => "error"

def Level.ofWord? : String → Option Level
  | "debug" => some .debug
  | "info" => some .info
  | "warn" => some .warn
  | "error" => some .error
  | _ => none

def Level.ofMethod? : String → Option Level
  | "warning" => some .warn
  | name => Level.ofWord? name

inductive Kind where
  | taskStart
  | taskEnd
  | taskCancelled
  | taskError
  | paused
  | resumed
  | tip
  | code
deriving DecidableEq, Repr

def Kind.word : Kind → String
  | .taskStart => "task_start"
  | .taskEnd => "task_end"
  | .taskCancelled => "task_cancelled"
  | .taskError => "task_error"
  | .paused => "paused"
  | .resumed => "resumed"
  | .tip => "tip"
  | .code => "code"

def Kind.ofWord? : String → Option Kind
  | "task_start" => some .taskStart
  | "task_end" => some .taskEnd
  | "task_cancelled" => some .taskCancelled
  | "task_error" => some .taskError
  | "paused" => some .paused
  | "resumed" => some .resumed
  | "tip" => some .tip
  | "code" => some .code
  | _ => none

def Kind.isDroppable : Kind → Bool
  | .code => true
  | _ => false

structure Event where
  seq : Nat
  level : Level
  kind : Kind
  data : Json

end Flowstep.Report
