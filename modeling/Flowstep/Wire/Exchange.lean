import Flowstep.Report.Record
import Flowstep.Wire.Traffic

/-!
Rehearsed exchanges: a connection with a peer that writes what it is told to.
-/
namespace Flowstep.Wire

structure Exchange where
  traffic : Traffic
  tokens : List (Option String) := []
  told : List Nat := []
  fired : List String := []
  peerGone : Bool := false
  unfinished : String := ""
  wire : List Envelope := []
  made : Nat := 0

namespace Exchange

def start (sender : String) : Exchange := { traffic := .start sender }

def link (x : Exchange) : Link := x.traffic.link

def places (x : Exchange) : List Nat := List.range x.traffic.tickets.length

def idOf (n : Nat) : String := "\x01" ++ toString n

def newId (x : Exchange) : String × Exchange := (idOf x.made, { x with made := x.made + 1 })

def readLine (t : Traffic) (line : String) : Traffic :=
  if (Text.trim line).isEmpty then t
  else match Envelope.ofLine? line with
    | some e => t.receive e
    | none => t

-- The writer writes all it has. When the peer is gone it notices so at the first message and ends.
def flush (x : Exchange) : Exchange :=
  match x.link.outbox with
  | [] => x
  | messages =>
    if x.peerGone then { x with traffic := (x.traffic.step .ship).close.step .hangUp }
    else
      { x with
        traffic := x.traffic.run (messages.map fun _ => .ship)
        wire := (messages.filterMap fun e => Envelope.ofLine? e.line).reverse ++ x.wire }

def isFired (x : Exchange) (token : Option String) : Bool :=
  match token with
  | some t => x.fired.contains t
  | none => false

def isCancelled (x : Exchange) (place : Nat) : Bool := x.isFired (x.tokens[place]?.getD none)

def settleAll (x : Exchange) : Exchange :=
  let settleAt (t : Traffic) (place : Nat) : Traffic := t.settle place (x.isCancelled place)
  { x with traffic := x.places.foldl settleAt x.traffic }

def settle (x : Exchange) : Exchange := x.settleAll.flush.settleAll

def write (x : Exchange) (text : String) : Exchange :=
  if x.peerGone then x
  else
    let pieces := Text.splitBy "\n" (x.unfinished ++ text)
    let traffic := pieces.dropLast.foldl readLine x.traffic
    { x with traffic, unfinished := pieces.getLast?.getD "" }.settle

def say (x : Exchange) (e : Envelope) : Exchange := x.write (e.line ++ "\n")

def drop (x : Exchange) : Exchange :=
  if x.peerGone then x
  else
    let traffic := (readLine x.traffic x.unfinished).close
    { x with traffic, unfinished := "", peerGone := true }.settle

def send (x : Exchange) (channel key : String) (payload : Json) (token : Option String) :
    Nat × Exchange :=
  let (id, x') := x.newId
  let x := if x.link.closed || x.isFired token then x else x'
  let traffic := x.traffic.step (.ask (x.link.envelope channel key id true payload))
  (x.traffic.tickets.length, { x with traffic, tokens := x.tokens ++ [token] }.settle)

def giveUpWhere (x : Exchange) (fault : Fault) (p : Nat → Bool) : Exchange :=
  { x with traffic := x.traffic.run ((x.places.filter p).map (.giveUp · fault)) }.settle

def timeOut (x : Exchange) (place : Nat) (limit : Duration) : Exchange :=
  x.giveUpWhere (.timeout limit) (· == place)

def cancel (x : Exchange) (token : String) : Bool × Exchange :=
  if x.fired.contains token then (false, x)
  else
    let x := { x with fired := token :: x.fired }
    (true, x.giveUpWhere .cancelled fun place => x.tokens[place]? == some (some token))

def notify (x : Exchange) (channel key : String) (payload : Json) : Except Fault Unit × Exchange :=
  let (id, x') := x.newId
  match x.link.notify id channel key payload with
  | .ok link => (.ok (), { x' with traffic := { x.traffic with link } }.settle)
  | .error e => (.error e, x)

def reply (x : Exchange) (place : Nat) (payload : Json) : Except Fault Unit × Exchange :=
  match x.link.inbound.reverse[place]? with
  | none => (.ok (), x)
  | some e =>
    match x.link.reply e payload with
    | .ok link => (.ok (), { x with traffic := { x.traffic with link } }.settle)
    | .error e => (.error e, x)

def report (x : Exchange) (r : Report.Record) : Exchange :=
  (x.notify "report" r.event.kind.word r.toJson).2

def resultOf? (x : Exchange) (place : Nat) : Option (Except Fault Envelope) :=
  (x.traffic.tickets[place]?).bind (·.result?)

def untold (x : Exchange) : List (Nat × Except Fault Envelope) :=
  (x.places.filter fun place => !x.told.contains place).filterMap fun place =>
    (x.resultOf? place).map fun r => (place, r)

def tell (x : Exchange) : Exchange :=
  { x with told := x.places.filter fun place => (x.resultOf? place).isSome }

end Exchange

end Flowstep.Wire
