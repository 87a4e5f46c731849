import Flowstep.Category
import Flowstep.Json.Record

/-!
Flow documents as they are stored: the entries of a flow with their inputs and outputs, and the
variables a project declares.
-/
namespace Flowstep.Flow

open Json (Reader slots)

structure InputEntry where
  key : String
  name : Option String := none
  title : String := ""
  value : Json := .null
  shown : Bool := true
  parse : Option String := none
deriving Inhabited

structure OutputEntry where
  key : String := ""
  value : Json := .null
  shown : Bool := true
deriving Inhabited

structure StepEntry where
  id : String := ""
  key : String := ""
  nickname : Option String := none
  title : Option String := none
  inputs : List InputEntry := []
  outputs : List OutputEntry := []
  disabled : Bool := false
  breakpoint : Bool := false
deriving Inhabited

inductive Direction where
  | input
  | output
deriving DecidableEq, Repr, Inhabited

def Direction.code : Direction → Nat
  | .input => 0
  | .output => 1

def Direction.ofCode (n : Nat) : Direction := if n = 1 then .output else .input

structure Variable where
  name : String
  typeName : String := ""
  value : Json := .null
  direction : Direction := .input
deriving Inhabited, BEq

-- The lines of a flow that are kept, both ends included. Zero leaves an end open.
structure Window where
  first : Nat := 0
  last : Nat := 0
deriving DecidableEq, Repr, Inhabited

def Window.contains (w : Window) (line : Nat) : Bool :=
  (w.first == 0 || w.first ≤ line) && (w.last == 0 || line ≤ w.last)

def InputEntry.read : Reader InputEntry := fun j => do
  let [key, name, title, value, shown, parse] ←
    slots ["key", "name", "title", "value", "show", "need_parse"] j | none
  return {
    key := ← key.required .text
    name := ← name.optional .text
    title := ← title.getD .text ""
    value := ← value.getD .tree .null
    shown := ← shown.getD .flag true
    parse := ← parse.optional .text }

def OutputEntry.read : Reader OutputEntry := fun j => do
  let [key, value, shown] ← slots ["key", "value", "show"] j | none
  return {
    key := ← key.getD .text ""
    value := ← value.getD .tree .null
    shown := ← shown.getD .flag true }

def StepEntry.read : Reader StepEntry := fun j => do
  let [id, key, name, title, inputs, outputs, disabled, breakpoint] ←
    slots ["id", "key", "alias", "title", "inputList", "outputList", "disabled", "breakpoint"] j
    | none
  return {
    id := ← id.getD .text ""
    key := ← key.getD .text ""
    nickname := ← name.optional .text
    title := ← title.optional .text
    inputs := ← inputs.getD (.list InputEntry.read) []
    outputs := ← outputs.getD (.list OutputEntry.read) []
    disabled := ← disabled.getD .flag false
    breakpoint := ← breakpoint.getD .flag false }

def Direction.read : Reader Direction := fun j => (Reader.below 256 j).map Direction.ofCode

def Variable.read : Reader Variable := fun j => do
  let [name, typeName, value, direction] ←
    slots ["varName", "varType", "varValue", "varDirection"] j | none
  return {
    name := ← name.required .text
    typeName := ← typeName.getD .text ""
    value := ← value.getD .tree .null
    direction := ← direction.getD Direction.read .input }

def Variable.toJson (v : Variable) : Json :=
  .ofFields [("varName", .str v.name), ("varType", .str v.typeName), ("varValue", v.value),
    ("varDirection", .int v.direction.code)]

def Window.read : Reader Window := fun j => do
  let [first, last] ← slots ["start", "end"] j | none
  return { first := ← first.required .natural, last := ← last.required .natural }

def Window.toJson (w : Window) : Json := .ofFields [("start", .int w.first), ("end", .int w.last)]

end Flowstep.Flow
