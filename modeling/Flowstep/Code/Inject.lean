import Flowstep.Code.Emit

/-!
Parameters put into a script that was written by hand.
-/
namespace Flowstep.Code

open Flowstep.Flow (Variable)

def leadingWidth (line : String) : Nat :=
  line.utf8ByteSize - (Text.trimStart line).utf8ByteSize

def isMainHeader (line : String) : Bool :=
  let trimmed := Text.trim line
  let code := Text.trimEnd (String.ofList (trimmed.toList.takeWhile (· != '#')))
  Text.startsWith code "def main(" && Text.endsWith code ":"

def isReturn (line : String) : Bool :=
  let text := Text.trimStart line
  text == "return" || Text.startsWith text "return "

def lastReturn? (lines : List String) : Option Nat :=
  (lines.reverse.findIdx? isReturn).map fun i => lines.length - 1 - i

def spaced (width : Nat) (text : String) : String := "".pushn ' ' width ++ text

-- Writes the outputs back before the last line of a body that returns, at that line's
-- indentation, or else at the end of the body.
def writeBack (width : Nat) (params : List Variable) (body : List String) : List String :=
  let writes (width : Nat) := (outputs params).map fun v => spaced width (writeBackText v)
  match lastReturn? body with
  | some i => body.take i ++ writes (leadingWidth (body.getD i "")) ++ body.drop i
  | none => body ++ writes width

def inject (width : Nat) (params : List Variable) (source : String) : String :=
  if params.isEmpty then source
  else
    let lines := Text.lines source
    match lines.findIdx? isMainHeader with
    | none => source
    | some i =>
      let inner := leadingWidth (lines.getD i "") + width
      Text.joinWith "\n" (lines.take (i + 1) ++ params.map (fun v => spaced inner (loadText v)) ++
        writeBack inner params (lines.drop (i + 1)))

end Flowstep.Code
