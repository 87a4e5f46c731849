import Flowstep.Code.Literal

/-!
Declared values.
-/
namespace Flowstep.Flow

inductive Tag where
  | expression
  | flowVariable
  | parameter
  | globalVariable
  | text
  | other
  | element
deriving DecidableEq, Repr, Inhabited

namespace Tag

def word : Tag → String
  | .expression => "python"
  | .flowVariable => "var"
  | .parameter => "p_var"
  | .globalVariable => "g_var"
  | .text => "str"
  | .other => "other"
  | .element => "element"

def ofWord? : String → Option Tag
  | "python" => some .expression
  | "var" => some .flowVariable
  | "p_var" => some .parameter
  | "g_var" => some .globalVariable
  | "str" => some .text
  | "other" => some .other
  | "element" => some .element
  | _ => none

def needsEvaluation : Tag → Bool
  | .expression | .flowVariable | .parameter | .globalVariable => true
  | .text | .other | .element => false

end Tag

structure Fragment where
  tag : Tag
  data : Json
deriving Inhabited, BEq

namespace Fragment

def isBlank (f : Fragment) : Bool :=
  match f.data with
  | .str s => s.isEmpty
  | _ => false

def tagOf? (item : Json) : Option Tag :=
  ((item.field? "type").bind Json.asStr?).bind Tag.ofWord?

def ofItem (item : Json) : Fragment :=
  ⟨(tagOf? item).getD .text, ((item.field? "data").or (item.field? "value")).getD (.str "")⟩

-- The fragments of a declared value. An array whose first item carries a tag gives one fragment
-- for each item, without the blank ones, of which the first is kept if there are no others. Any other
-- value is a single literal.
def ofValue (value : Json) : List Fragment :=
  match value with
  | .arr (first :: rest) =>
    if (tagOf? first).isSome then
      let all := (first :: rest).map ofItem
      let kept := all.filter (!·.isBlank)
      if kept.isEmpty then all.take 1 else kept
    else [⟨.other, value⟩]
  | _ => [⟨.other, value⟩]

def toJson (f : Fragment) : Json := .ofFields [("kind", .str f.tag.word), ("data", f.data)]

def firstText (fragments : List Fragment) : String :=
  match fragments with
  | [] => ""
  | f :: _ => Code.literalText f.data

end Fragment

end Flowstep.Flow
