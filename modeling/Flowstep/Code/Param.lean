import Flowstep.Flow.Step
import Flowstep.Json.Parser

/-!
Declared values as script code.
-/
namespace Flowstep.Code

open Flowstep.Flow (Tag Fragment Input ParamError Variable)

inductive Operand where
  | literal (value : Json)
  | expression (code : String)
deriving Inhabited

namespace Operand

def code : Operand → String
  | .literal value => Code.literal value
  | .expression text => text

def needsEvaluation : Operand → Bool
  | .literal _ => false
  | .expression _ => true

def piece (f : Fragment) : String :=
  match f.tag with
  | .text | .other | .element => Code.literal f.data
  | .globalVariable => globalRef (literalText f.data)
  | .expression | .flowVariable | .parameter => literalText f.data

def joined (fragments : List Fragment) : String :=
  Text.joinWith " + " (fragments.map fun f => "str(" ++ piece f ++ ")")

def ofFragments (fragments : List Fragment) : Operand :=
  if fragments.any (·.tag.needsEvaluation) then
    match fragments with
    | [f] => .expression (piece f)
    | fs => .expression (joined fs)
  else
    match fragments with
    | [f] => .literal f.data
    | fs => .literal (.str (String.join (fs.map fun f => literalText f.data)))

-- The operand of a variable's default value. A text that opens a bracket may hold the fragments
-- as JSON.
def ofDefault (v : Variable) : Operand :=
  let value := match v.value with
    | .str s =>
      if Text.startsWith (Text.trimStart s) "[" then (Json.parse? s).getD v.value else v.value
    | j => j
  ofFragments (Fragment.ofValue value)

end Operand

inductive Reference where
  | element
  | process
  | module
deriving DecidableEq, Repr, Inhabited

def Reference.word : Reference → String
  | .element => "element"
  | .process => "process"
  | .module => "module"

structure Argument where
  name : String
  operand : Operand
  reference : Option Reference := none
deriving Inhabited

namespace Argument

def code (a : Argument) : String :=
  match a.reference with
  | some r => r.word ++ "(" ++ a.operand.code ++ ")"
  | none => a.operand.code

def text (a : Argument) : String := a.name ++ "=" ++ a.code

def referenceOf (key : String) (i : Input) : Option Reference :=
  match i.value with
  | [⟨.element, _⟩] => some .element
  | _ =>
    if key == "Script.process" && i.name == "process" then some .process
    else if key == "Script.module" && i.name == "content" then some .module
    else none

def ofInput (key : String) (i : Input) : Except ParamError Argument :=
  if i.parse = some "json_str" then
    let text := Fragment.firstText i.value
    if (Text.trim text).isEmpty then .ok ⟨i.name, .literal .null, none⟩
    else match Json.parse? text with
      | some j => .ok ⟨i.name, .literal j, none⟩
      | none => .error (.badJson i.name)
  else .ok ⟨i.name, .ofFragments i.value, referenceOf key i⟩

end Argument

def targetOf (globals : List String) (name : String) : String :=
  if globals.contains name then globalRef name else name

end Flowstep.Code
