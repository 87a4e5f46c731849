import Flowstep.Json.Parser
import Flowstep.Json.Printer
import Flowstep.Json.Record
import Flowstep.Text.Blank

/-!
Messages between programs, one a line of JSON text.
-/
namespace Flowstep.Wire

structure Envelope where
  channel : String
  key : String
  id : String
  sender : String
  needsReply : Bool := false
  payload : Json := .null
deriving Inhabited

namespace Envelope

def read : Json.Reader Envelope := fun j => do
  let [channel, key, id, sender, needsReply, payload] ←
    Json.slots ["channel", "key", "correlationId", "senderId", "needsReply", "payload"] j | none
  return {
    channel := ← channel.required .text
    key := ← key.required .text
    id := ← id.required .text
    sender := ← sender.required .text
    needsReply := ← needsReply.getD .flag false
    payload := ← payload.getD .tree .null }

def toJson (e : Envelope) : Json :=
  .obj ⟨[("channel", .str e.channel), ("key", .str e.key), ("correlationId", .str e.id),
    ("senderId", .str e.sender), ("needsReply", .bool e.needsReply), ("payload", e.payload)]⟩

def line (e : Envelope) : String := e.toJson.render

def ofLine? (line : String) : Option Envelope := (Json.Written.parse? line).bind read

end Envelope

end Flowstep.Wire
