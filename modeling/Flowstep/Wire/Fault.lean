import Flowstep.Duration

/-!
Why a request over a connection gets no reply.
-/
namespace Flowstep.Wire

inductive Fault where
  | timeout (limit : Duration)
  | closed
  | cancelled
deriving DecidableEq, Repr, Inhabited

def Fault.message : Fault → String
  | .timeout limit => "no reply within " ++ limit.text
  | .closed => "connection closed"
  | .cancelled => "request cancelled"

end Flowstep.Wire
