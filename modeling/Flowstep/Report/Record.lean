import Flowstep.Json.Record
import Flowstep.Report.Event
import Flowstep.Report.Timestamp

/-!
Events as they are sent to another program.
-/
namespace Flowstep.Report

structure Record where
  event : Event
  executionId : String
  timestamp : Timestamp

namespace Record

def read : Json.Reader Record := fun j => do
  let [seq, executionId, timestamp, level, kind, data] ←
    Json.slots ["seq", "executionId", "timestamp", "level", "kind", "data"] j | none
  let event : Event := {
    seq := ← seq.required .natural
    level := ← level.required (.word Level.ofWord?)
    kind := ← kind.required (.word Kind.ofWord?)
    data := ← data.required .tree }
  return {
    event
    executionId := ← executionId.required .text
    timestamp := ← timestamp.required fun w => (Json.Reader.text w).bind Timestamp.read? }

def toJson (r : Record) : Json :=
  .ofFields [("seq", .int r.event.seq), ("executionId", .str r.executionId),
    ("timestamp", .str r.timestamp.render), ("level", .str r.event.level.word),
    ("kind", .str r.event.kind.word), ("data", r.event.data)]

end Record

end Flowstep.Report
