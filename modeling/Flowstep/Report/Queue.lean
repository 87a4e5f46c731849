import Flowstep.Report.Event

/-!
The queue of events that wait to be delivered.
-/
namespace Flowstep.Report

structure Queue where
  capacity : Nat
  events : List Event := []
  dropped : Nat := 0

namespace Queue

def new (capacity : Nat) : Queue := { capacity := max capacity 1 }

-- The product is that of two machine words, so from a capacity of `2 ^ 62` on it wraps. Where overflow is checked, a push to
-- such a queue does not return.
def highMark (q : Queue) : Nat := max (q.capacity * 4 % UInt64.size / 5) 1

def lowMark (q : Queue) : Nat := q.capacity / 5

def shed (low : Nat) : Nat → List Event → List Event
  | _, [] => []
  | n, e :: rest =>
    if n ≤ low then e :: rest
    else if e.kind.isDroppable then shed low (n - 1) rest
    else e :: shed low n rest

def relieve (q : Queue) : Queue :=
  if q.highMark ≤ q.events.length then
    let kept := shed q.lowMark q.events.length q.events
    { q with events := kept, dropped := q.dropped + (q.events.length - kept.length) }
  else q

-- Adds an event. A droppable event that finds no room gives way itself.
def push (q : Queue) (e : Event) : Queue :=
  let q := q.relieve
  if e.kind.isDroppable && q.capacity ≤ q.events.length then { q with dropped := q.dropped + 1 }
  else { q with events := q.events ++ [e] }

def pop? (q : Queue) : Option (Event × Queue) :=
  match q.events with
  | [] => none
  | e :: rest => some (e, { q with events := rest })

def popMany (q : Queue) : Nat → List (Option Event) × Queue
  | 0 => ([], q)
  | n + 1 =>
    match q.pop? with
    | some (e, q) => ((q.popMany n).map (some e :: ·) id)
    | none => ((q.popMany n).map (none :: ·) id)

def pushMany (q : Queue) (e : Event) : Nat → Queue
  | 0 => q
  | n + 1 => (q.push e).pushMany { e with seq := e.seq + 1 } n

def size (q : Queue) : Nat := q.events.length

end Queue

end Flowstep.Report
