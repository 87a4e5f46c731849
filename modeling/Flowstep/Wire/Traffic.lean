import Flowstep.Wire.Link

/-!
All that happens on a connection: its requests, its reader, its writer and the end of the connection
take their steps in any order.
-/
namespace Flowstep.Wire

structure Traffic where
  link : Link
  tickets : List Ticket := []

inductive Move where
  | ask (message : Envelope)
  | proceed (place : Nat) (cancelled : Bool)
  | giveUp (place : Nat) (fault : Fault)
  | read (e : Envelope)
  | deliver
  | ship
  | hangUp
  | shut
  | drain
  | release (id : String)

namespace Traffic

def start (sender : String) : Traffic := { link := { sender } }

def proceed (t : Traffic) (place : Nat) (cancelled : Bool) : Traffic :=
  match t.tickets[place]? with
  | none => t
  | some ticket =>
    let (link, ticket) := ticket.advance cancelled t.link
    { link, tickets := t.tickets.set place ticket }

def step (t : Traffic) : Move → Traffic
  | .ask message => { t with tickets := t.tickets ++ [{ message }] }
  | .proceed place cancelled => t.proceed place cancelled
  | .giveUp place fault => { t with tickets := t.tickets.modify place (·.giveUp fault) }
  | .read e => { t with link := t.link.take e }
  | .deliver => { t with link := t.link.deliver }
  | .ship => { t with link := t.link.ship }
  | .hangUp => { t with link := t.link.hangUp }
  | .shut => { t with link := t.link.shut }
  | .drain => if t.link.closed then { t with link := t.link.drain } else t
  | .release id => { t with link := t.link.release id }

def run (t : Traffic) (moves : List Move) : Traffic := moves.foldl step t

def receive (t : Traffic) (e : Envelope) : Traffic := t.run [.read e, .deliver, .deliver]

def close (t : Traffic) : Traffic :=
  t.run ([.shut, .drain] ++ (t.link.pending ++ t.link.drained).map .release)

def isReady (t : Traffic) (place : Nat) : Bool :=
  match t.tickets[place]? with
  | none => false
  | some ticket =>
    match ticket.stage, t.link.listen ticket.id with
    | .waiting, .silence => false
    | .outrun _, .silence => false
    | .done _, _ => false
    | _, _ => true

-- The request at a place goes on until it has a result or has to wait; six steps are enough for
-- that.
def settle (t : Traffic) (place : Nat) (cancelled : Bool) : Traffic :=
  if t.isReady place then t.run (List.replicate 6 (.proceed place cancelled)) else t

end Traffic

end Flowstep.Wire
