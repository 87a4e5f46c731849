import Flowstep.Wire.Envelope
import Flowstep.Wire.Fault

/-!
Requests and replies over one connection. A request puts its id into a table before it is sent; the reader of the
connection takes the id of a reply out of the table and hands the reply to the request.
-/
namespace Flowstep.Wire

inductive Reading where
  | idle
  | claimed (e : Envelope)
  | unclaimed (e : Envelope)
  | foreign (e : Envelope)
deriving Inhabited

def Reading.message? : Reading → Option Envelope
  | .idle => none
  | .claimed e => some e
  | .unclaimed e => some e
  | .foreign e => some e

def Reading.reply? (r : Reading) (id : String) : Option Envelope :=
  match r with
  | .claimed e => if e.id = id then some e else none
  | _ => none

structure Link where
  sender : String
  pending : List String := []
  -- Ids that were in the table when the connection was found gone and whose requests have yet to
  -- be told so.
  drained : List String := []
  reader : Reading := .idle
  handed : List (String × Envelope) := []
  expired : List String := []
  closed : Bool := false
  writing : Bool := true
  outbox : List Envelope := []
  inbound : List Envelope := []
  late : List Envelope := []
  taken : List Envelope := []
deriving Inhabited

inductive Hearing where
  | reply (e : Envelope)
  | gone
  | silence

namespace Link

def maxExpired : Nat := 1024

def expire (l : Link) (id : String) : Link :=
  let marks := if l.expired.contains id then l.expired else l.expired ++ [id]
  { l with expired := marks.drop (marks.length - maxExpired) }

def register (l : Link) (id : String) : Link := { l with pending := id :: l.pending }

def forget (l : Link) (id : String) : Link := { l with pending := l.pending.filter (· != id) }

def shut (l : Link) : Link := { l with closed := true }

def drain (l : Link) : Link := { l with drained := l.pending ++ l.drained, pending := [] }

def release (l : Link) (id : String) : Link := { l with drained := l.drained.filter (· != id) }

def take (l : Link) (e : Envelope) : Link :=
  match l.reader with
  | .idle =>
    if l.pending.contains e.id then
      { l.forget e.id with reader := .claimed e, taken := e :: l.taken }
    else { l with reader := .unclaimed e, taken := e :: l.taken }
  | _ => l

def deliver (l : Link) : Link :=
  match l.reader with
  | .idle => l
  | .claimed e => { l with reader := .idle, handed := (e.id, e) :: l.handed }
  | .unclaimed e =>
    if l.expired.contains e.id then
      { l with reader := .idle, expired := l.expired.filter (· != e.id), late := e :: l.late }
    else { l with reader := .foreign e }
  | .foreign e => { l with reader := .idle, inbound := e :: l.inbound }

def holds (l : Link) (id : String) : Bool :=
  l.pending.contains id || l.drained.contains id || (l.reader.reply? id).isSome

def listen (l : Link) (id : String) : Hearing :=
  match l.handed.lookup id with
  | some e => .reply e
  | none => if l.holds id then .silence else .gone

def collect (l : Link) (id : String) : Link :=
  { l with handed := l.handed.eraseP fun p => id == p.1 }

def post (l : Link) (e : Envelope) : Except Fault Link :=
  if l.writing then .ok { l with outbox := l.outbox ++ [e] } else .error .closed

def ship (l : Link) : Link := { l with outbox := l.outbox.tail }

def hangUp (l : Link) : Link := { l with writing := false, outbox := [] }

def envelope (l : Link) (channel key id : String) (needsReply : Bool) (payload : Json) : Envelope :=
  { channel, key, id, sender := l.sender, needsReply, payload }

def notify (l : Link) (id channel key : String) (payload : Json) : Except Fault Link :=
  l.post (l.envelope channel key id false payload)

def reply (l : Link) (asked : Envelope) (payload : Json) : Except Fault Link :=
  l.post (l.envelope asked.channel asked.key asked.id false payload)

end Link

inductive Stage where
  | fresh
  | checked
  | registered
  | confirmed
  | refused
  | waiting
  | leaving (fault : Fault)
  | marking (fault : Fault)
  | outrun (fault : Fault)
  | orphaned (fault : Fault)
  | done (result : Except Fault Envelope)

structure Ticket where
  message : Envelope
  stage : Stage := .fresh

namespace Ticket

def id (t : Ticket) : String := t.message.id

def result? (t : Ticket) : Option (Except Fault Envelope) :=
  match t.stage with
  | .done r => some r
  | _ => none

def giveUp (t : Ticket) (fault : Fault) : Ticket :=
  match t.stage with
  | .waiting => { t with stage := .leaving fault }
  | _ => t

def advance (cancelled : Bool) (l : Link) (t : Ticket) : Link × Ticket :=
  let reach (l : Link) (stage : Stage) : Link × Ticket := (l, { t with stage })
  match t.stage with
  | .fresh =>
    if l.closed then reach l (.done (.error .closed))
    else if cancelled then reach l (.done (.error .cancelled))
    else reach l .checked
  | .checked => reach (l.register t.id) .registered
  | .registered => reach l (if l.closed then .refused else .confirmed)
  | .confirmed =>
    match l.post t.message with
    | .ok l => reach l .waiting
    | .error _ => reach l .refused
  | .refused => reach (l.forget t.id) (.done (.error .closed))
  | .waiting =>
    match l.listen t.id with
    | .reply e => reach (l.collect t.id) (.done (.ok e))
    | .gone => reach l (.done (.error .closed))
    | .silence => (l, t)
  | .leaving fault =>
    if l.pending.contains t.id then reach (l.forget t.id) (.marking fault)
    else reach l (.outrun fault)
  | .marking fault => reach (l.expire t.id) (.done (.error fault))
  | .outrun fault =>
    match l.listen t.id with
    | .reply e => reach (l.collect t.id) (.done (.ok e))
    | .gone => reach l (.orphaned fault)
    | .silence => (l, t)
  | .orphaned fault => reach l (.done (.error (if l.closed then .closed else fault)))
  | .done _ => (l, t)

end Ticket

end Flowstep.Wire
