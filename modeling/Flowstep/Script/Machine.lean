import Flowstep.Report.Event
import Flowstep.Script.Builtin

/-!
The state of a running script and the services it asks of its host.
-/
namespace Flowstep.Script

structure Frames where
  base : Dict Value
  inner : List (Dict Value)

namespace Frames

def start : Frames := ⟨∅, []⟩

def current (f : Frames) : Dict Value := f.inner.head?.getD f.base

def depth (f : Frames) : Nat := f.inner.length

def lookup (f : Frames) (name : String) : Option Value :=
  match f.current.get? name with
  | some v => some v
  | none => f.base.get? name

def bind (f : Frames) (name : String) (v : Value) : Frames :=
  match f.inner with
  | [] => { f with base := f.base.insert name v }
  | frame :: rest => { f with inner := frame.insert name v :: rest }

def rebind (f : Frames) (name : String) (v : Value) : Frames :=
  if f.current.contains name then f.bind name v else { f with base := f.base.insert name v }

def push (f : Frames) (frame : Dict Value) : Frames := { f with inner := frame :: f.inner }

def pop (f : Frames) : Frames := { f with inner := f.inner.tail }

end Frames

structure Scope where
  unit : String
  locals : Dict Value
  depth : Nat

structure AtomicCall where
  key : String
  args : Args
  unit : String
  line : Nat

def AtomicCall.kwarg? (call : AtomicCall) (name : String) : Option Value :=
  call.args.keywords.lookup name

structure World (σ : Type) where
  globals : Dict Value
  host : σ

structure Host (σ : Type) where
  checkpoint : Nat → Scope → EStateM Stop (World σ) Unit
  callAtomic : AtomicCall → EStateM Stop (World σ) Value
  report : Report.Level → Value → EStateM Stop (World σ) Unit
  sleep : Float → EStateM Stop (World σ) Unit
  print : String → EStateM Stop (World σ) Unit

structure Machine (σ : Type) where
  world : World σ
  frames : Frames
  functions : Dict Function
  handling : List Error
  line : Nat

def Machine.start {σ : Type} (world : World σ) : Machine σ :=
  { world, frames := .start, functions := ∅, handling := [], line := 0 }

abbrev Exec (σ : Type) := EStateM Stop (Machine σ)

namespace Exec

variable {σ α : Type}

def ofHost (m : EStateM Stop (World σ) α) : Exec σ α := fun s =>
  match m s.world with
  | .ok a world => .ok a { s with world }
  | .error e world => .error e { s with world }

def ofExcept : Except Stop α → Exec σ α
  | .ok a => pure a
  | .error e => throw e

def ofResult : Except Error α → Exec σ α
  | .ok a => pure a
  | .error e => throw (.error e)

def fail (kind : ErrorKind) : Exec σ α := throw (Stop.ofKind kind)

def mapError (f : Error → Error) (m : Exec σ α) : Exec σ α := fun s =>
  match m s with
  | .error (.error e) s => .error (.error (f e)) s
  | result => result

def observe (m : Exec σ α) : Exec σ (Except Error α) := fun s =>
  match m s with
  | .ok a s => .ok (.ok a) s
  | .error (.error e) s => .ok (.error e) s
  | .error stop s => .error stop s

def lookup (name : String) : Exec σ (Option Value) := do
  return (← get).frames.lookup name

def bind (name : String) (v : Value) : Exec σ Unit :=
  modify fun s => { s with frames := s.frames.bind name v }

def globals : Exec σ (Dict Value) := do
  return (← get).world.globals

def setGlobals (globals : Dict Value) : Exec σ Unit :=
  modify fun s => { s with world := { s.world with globals } }

end Exec

end Flowstep.Script
