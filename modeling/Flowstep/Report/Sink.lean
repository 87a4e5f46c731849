import Flowstep.Report.Queue

/-!
The sink that takes the events of a run and passes them on, one after the other, to whoever observes the run.
-/
namespace Flowstep.Report

structure Sink where
  queue : Queue
  nextSeq : Nat := 0
  inFlight : Option Event := none
  closed : Bool := false
  delivered : List Event := []

namespace Sink

def new (capacity : Nat) : Sink := { queue := .new capacity }

def emit (s : Sink) (level : Level) (kind : Kind) (data : Json) : Nat × Sink :=
  let seq := s.nextSeq
  let s := { s with nextSeq := seq + 1 }
  if s.closed then (seq, s)
  else (seq, { s with queue := s.queue.push ⟨seq, level, kind, data⟩ })

def fetch (s : Sink) : Sink :=
  match s.inFlight, s.queue.pop? with
  | none, some (e, queue) => { s with inFlight := some e, queue }
  | _, _ => s

def deliver (s : Sink) : Sink :=
  match s.inFlight with
  | some e => { s with inFlight := none, delivered := e :: s.delivered }
  | none => s

def isIdle (s : Sink) : Bool := s.queue.events.isEmpty && s.inFlight.isNone

def drainWithin : Nat → Sink → Sink
  | 0, s => s
  | n + 1, s => if s.isIdle then s else drainWithin n s.deliver.fetch

def drain (s : Sink) : Sink := (drainWithin (s.queue.size + 1) s).deliver

def close (s : Sink) : Sink := { s with closed := true }

def dropped (s : Sink) : Nat := s.queue.dropped

def ofKind (s : Sink) (kind : Kind) : List Event :=
  (s.delivered.filter fun e => e.kind = kind).reverse

end Sink

-- A sink behind a valve. As long as the valve is shut the first event stays in flight.
structure ValvedSink where
  sink : Sink
  isOpen : Bool := false

namespace ValvedSink

def settle (v : ValvedSink) : ValvedSink :=
  { v with sink := if v.isOpen then v.sink.drain else v.sink.fetch }

def emit (v : ValvedSink) (level : Level) (kind : Kind) (data : Json) : Nat × ValvedSink :=
  let (seq, sink) := v.sink.emit level kind data
  (seq, { v with sink }.settle)

def emitMany (v : ValvedSink) (level : Level) (kind : Kind) (data : Json) :
    Nat → List Nat × ValvedSink
  | 0 => ([], v)
  | n + 1 =>
    let (seq, v) := v.emit level kind data
    let (seqs, v) := emitMany v level kind data n
    (seq :: seqs, v)

def «open» (v : ValvedSink) : ValvedSink := { v with isOpen := true }.settle

def close (v : ValvedSink) : ValvedSink := { v with isOpen := true, sink := v.sink.close }.settle

end ValvedSink

end Flowstep.Report
