import Flowstep.Script.Interp

/-!
A host that answers operations from prepared replies and records everything a script asks of it.
-/
namespace Flowstep.Script.Recorder

inductive Reply where
  | value (v : Value)
  | failure (message : String)
  | timeout (seconds : Float)
  | halt

inductive Entry where
  | line (line : Nat)
  | watch (scope : Scope)
  | call (call : AtomicCall)
  | report (level : Report.Level) (record : Value)
  | sleep (seconds : Float)
  | print (text : String)

structure State where
  replies : Dict (List Reply)
  calls : Dict Nat
  watched : List Nat
  haltAt : Option Nat
  log : List Entry

def note (e : Entry) : EStateM Stop (World State) Unit :=
  modify fun w => { w with host := { w.host with log := e :: w.host.log } }

def nextReply (key : String) : EStateM Stop (World State) (Option Reply) := do
  let s := (← get).host
  let count := s.calls.getD key 0
  modify fun w => { w with host := { w.host with calls := w.host.calls.insert key (count + 1) } }
  match s.replies.get? key with
  | none => return none
  | some replies => return match replies[count]? with
    | some r => some r
    | none => replies.getLast?

def failWith {α : Type} (kind : ErrorKind) : EStateM Stop (World State) α := throw (Stop.ofKind kind)

def host : Host State where
  checkpoint line scope := do
    note (.line line)
    let s := (← get).host
    if s.watched.contains line then note (.watch scope)
    if s.haltAt = some line then failWith .halted
  callAtomic call := do
    note (.call call)
    match ← nextReply call.key with
    | none => return .str (call.key ++ " ok")
    | some (.value v) => return v
    | some (.failure message) => failWith (.atomic message)
    | some (.timeout seconds) => failWith (.timeout seconds)
    | some .halt => failWith .halted
  report level record := note (.report level record)
  sleep seconds := note (.sleep seconds)
  print text := note (.print text)

end Flowstep.Script.Recorder
