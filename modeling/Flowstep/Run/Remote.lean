import Flowstep.Run.Operation
import Flowstep.Wire.Exchange

/-!
Operations that another program performs, asked for over a connection.
-/
namespace Flowstep.Run.Remote

open Wire (Envelope Exchange Fault)

def channel : String := "atomic"

def payload (r : Request) : Json := .ofFields [("args", .obj r.args), ("info", r.info)]

def resultOf (key : String) (reply : Envelope) : Except OperationError Json :=
  if (reply.payload.field? "ok").bind Json.asBool? = some true then
    .ok ((reply.payload.field? "result").getD .null)
  else .error (.failed (match reply.payload.field? "error" with
    | some (.str text) => text
    | some other => other.render
    | none => key ++ " failed"))

def outcomeOf (key : String) : Except Fault Envelope → Except OperationError Json
  | .ok reply => resultOf key reply
  | .error e => .error (.fault e)

-- A connection to a worker with prepared replies. A missing reply means that the worker is silent,
-- and without further replies it drops the connection.
structure Worker where
  exchange : Exchange
  replies : List (Option Json)

def offToken : String := "off"

def Worker.start (sender : String) (replies : List (Option Json)) : Worker :=
  { exchange := { Exchange.start sender with fired := [offToken] }, replies }

def Worker.serve (w : Worker) (place : Nat) (r : Request) : Worker :=
  match w.replies with
  | [] => { w with exchange := w.exchange.drop }
  | none :: rest => ⟨w.exchange.timeOut place r.limit, rest⟩
  | some payload :: rest =>
    match w.exchange.wire.head? with
    | some e => ⟨w.exchange.say { e with sender := "worker", needsReply := false, payload }, rest⟩
    | none => { w with replies := rest }

def Worker.invoke (w : Worker) (r : Request) (cancelled : Bool) :
    Except OperationError Json × Worker :=
  let token := if cancelled then some offToken else none
  let (place, x) := w.exchange.send channel r.key (payload r) token
  let w := { w with exchange := x }
  let w := if (x.resultOf? place).isSome then w else w.serve place r
  match w.exchange.resultOf? place with
  | some result => (outcomeOf r.key result, w)
  | none => (.error (.fault (.timeout r.limit)), w)

end Flowstep.Run.Remote
