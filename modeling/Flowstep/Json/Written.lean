import Flowstep.Json.Basic

/-!
JSON documents as they are written: the fields of an object stand in the order of the text, one name
may be given twice, and a place that nobody reads may hold something that stands for no value.
-/
namespace Flowstep.Json

inductive Written where
  | null
  | bool (flag : Bool)
  | int (n : Int)
  | float (x : Float)
  | str (text : String)
  | arr (items : List Written)
  | obj (fields : List (String × Written))
  -- Follows the grammar but stands for no value: a number that no double comes near to, a text with
  -- half of a surrogate pair, an object with such a name, or an array or object nested too deep.
  | unreadable
deriving Inhabited

namespace Written

mutual

def value? : Written → Option Json
  | .null => some .null
  | .bool b => some (.bool b)
  | .int n => some (.int n)
  | .float x => some (.float x)
  | .str s => some (.str s)
  | .arr items => (itemValues? items).map .arr
  | .obj fields => (fieldValues? fields).map .ofFields
  | .unreadable => none

def itemValues? : List Written → Option (List Json)
  | [] => some []
  | w :: rest => do
    let j ← value? w
    let js ← itemValues? rest
    return j :: js

def fieldValues? : List (String × Written) → Option (List (String × Json))
  | [] => some []
  | (k, w) :: rest => do
    let j ← value? w
    let js ← fieldValues? rest
    return (k, j) :: js

end

mutual

def ofJson : Json → Written
  | .null => .null
  | .bool b => .bool b
  | .int n => .int n
  | .float x => .float x
  | .str s => .str s
  | .arr items => .arr (ofItems items)
  | .obj ⟨fields⟩ => .obj (ofFields fields)

def ofItems : List Json → List Written
  | [] => []
  | j :: rest => ofJson j :: ofItems rest

def ofFields : List (String × Json) → List (String × Written)
  | [] => []
  | (k, j) :: rest => (k, ofJson j) :: ofFields rest

end

end Written

end Flowstep.Json
