import Flowstep.Json.Record
import Flowstep.Text.Search

/-!
Lines of generated script text.
-/
namespace Flowstep.Code

structure Line where
  indent : Nat
  text : String
  origin : Option Nat := none
deriving DecidableEq, Repr, Inhabited

namespace Line

-- Meant for a product below `2 ^ 64`; no longer row of blanks can be stored.
def render (width : Nat) (l : Line) : String :=
  "".pushn ' ' (l.indent * width) ++ l.text

def originOf (n : Nat) : Option Nat := if n = 0 then none else some n

def read : Json.Reader Line := fun j => do
  let [indent, text, origin] ← Json.slots ["indent", "text", "origin_line"] j | none
  return {
    indent := ← indent.required .natural
    text := ← text.required .text
    origin := originOf (← origin.required .natural) }

end Line

def render (width : Nat) (lines : List Line) : String :=
  Text.joinWith "\n" (lines.map (Line.render width))

end Flowstep.Code
