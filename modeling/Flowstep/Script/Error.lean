import Flowstep.Decimal.Layout

/-!
Why a script stops: failures with their place, and the two endings that are no failure of the script.
-/
namespace Flowstep.Script

inductive TypeIssue where
  | operand (op left right : String)
  | notSubscriptable (typeName : String)
  | notIterable (typeName : String)
  | notCallable (typeName : String)
  | badArguments (function message : String)
deriving DecidableEq, Repr

def TypeIssue.message : TypeIssue → String
  | .operand op left right =>
    "unsupported operand type(s) for " ++ op ++ ": '" ++ left ++ "' and '" ++ right ++ "'"
  | .notSubscriptable t => "'" ++ t ++ "' object is not subscriptable"
  | .notIterable t => "'" ++ t ++ "' object is not iterable"
  | .notCallable t => "'" ++ t ++ "' object is not callable"
  | .badArguments f m => f ++ "() " ++ m

inductive ErrorKind where
  | name (name : String)
  | attribute (typeName attr : String)
  | type (issue : TypeIssue)
  | index (typeName : String)
  | key (key : String)
  | value (message : String)
  | zeroDivision
  | noModule (name : String)
  | malformed (line : Nat) (message : String)
  | param (name value expected : String)
  | timeout (seconds : Float)
  | atomic (message : String)
  | runtime (message : String)
  | halted

def ErrorKind.message : ErrorKind → String
  | .name n => "name '" ++ n ++ "' is not defined"
  | .attribute t a => "'" ++ t ++ "' object has no attribute '" ++ a ++ "'"
  | .type issue => issue.message
  | .index t => t ++ " index out of range"
  | .key k => "key '" ++ k ++ "' not found"
  | .value m => m
  | .zeroDivision => "division by zero"
  | .noModule n => "no module named '" ++ n ++ "'"
  | .malformed line m => "invalid syntax at line " ++ toString line ++ ": " ++ m
  | .param n v expected => "parameter '" ++ n ++ "': " ++ v ++ " is not a valid " ++ expected
  | .timeout seconds => "no reply within " ++ Decimal.plain.write seconds ++ "s"
  | .atomic m => m
  | .runtime m => m
  | .halted => "execution stopped"

def ErrorKind.isHalted : ErrorKind → Bool
  | .halted => true
  | _ => false

structure Place where
  unit : String
  line : Nat
deriving DecidableEq, Repr

-- A failure with the lines it passed through, the innermost first. `located` says that the current
-- call level has its line.
structure Error where
  kind : ErrorKind
  trace : List Place
  located : Bool

namespace Error

def ofKind (kind : ErrorKind) : Error := ⟨kind, [], false⟩

def isHalted (e : Error) : Bool := e.kind.isHalted

def isCatchable (e : Error) : Bool := !e.isHalted

-- Adds the line of the statement that failed, once for each call level.
def locate (e : Error) (unit : String) (line : Nat) : Error :=
  if e.located then e else { e with trace := e.trace ++ [⟨unit, line⟩], located := true }

def unwind (e : Error) : Error := { e with located := false }

end Error

-- How a run ends without a value: with a failure, by leaving the range of a machine word where nothing
-- guards it, or because the fuel is used up.
inductive Stop where
  | error (e : Error)
  | abort
  | exhausted

def Stop.ofKind (kind : ErrorKind) : Stop := .error (Error.ofKind kind)

def fail {α : Type} (kind : ErrorKind) : Except Stop α := .error (Stop.ofKind kind)

def failType {α : Type} (issue : TypeIssue) : Except Stop α := fail (.type issue)

def failArguments {α : Type} (function message : String) : Except Stop α :=
  failType (.badArguments function message)

end Flowstep.Script
