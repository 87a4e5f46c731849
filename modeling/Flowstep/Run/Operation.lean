import Flowstep.Script.Machine
import Flowstep.Wire.Fault

/-!
Operations that a running script asks of a backend.
-/
namespace Flowstep.Run

open Script (AtomicCall ErrorKind Value)

structure Request where
  key : String
  args : Dict Json
  info : Json
  limit : Duration
deriving Inhabited

inductive OperationError where
  | failed (message : String)
  | unknown (key : String)
  | fault (fault : Wire.Fault)
deriving DecidableEq, Repr, Inhabited

def OperationError.kind : OperationError → ErrorKind
  | .failed message => .atomic message
  | .unknown key => .noModule key
  | .fault (.timeout limit) => .timeout limit.toFloat
  | .fault .closed => .atomic Wire.Fault.closed.message
  | .fault .cancelled => .halted

def isReserved (name : String) : Bool := Text.startsWith name "__" && Text.endsWith name "__"

namespace Request

def argsOf (call : AtomicCall) : Dict Json :=
  let named := (call.args.keywords.filter fun e => !isReserved e.1).map fun e => (e.1, e.2.toJson)
  let unnamed :=
    if call.args.positional.isEmpty then []
    else [("__positional__", Json.arr (call.args.positional.map Value.toJson))]
  Dict.ofList (named ++ unnamed)

def infoOf (call : AtomicCall) : Json :=
  match call.kwarg? "__info__" with
  | some v => v.toJson
  | none => .arr [.int 0, .str call.unit]

def ofCall (limit : Duration) (call : AtomicCall) : Request :=
  { key := call.key, args := argsOf call, info := infoOf call, limit }

end Request

end Flowstep.Run
