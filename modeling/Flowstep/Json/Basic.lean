import Flowstep.Decimal.Layout
import Flowstep.Dict

/-!
JSON values. A number is an integer or a double.
-/
namespace Flowstep

inductive Json where
  | null
  | bool (flag : Bool)
  | int (n : Int)
  | float (x : Float)
  | str (text : String)
  | arr (items : List Json)
  | obj (fields : Dict Json)
deriving Inhabited

namespace Json

mutual

-- Equality. Doubles are compared as numbers, and an integer never equals a double.
def beq : Json → Json → Bool
  | .null, .null => true
  | .bool a, .bool b => a == b
  | .int a, .int b => a == b
  | .float a, .float b => a == b
  | .str a, .str b => a == b
  | .arr as, .arr bs => beqItems as bs
  | .obj ⟨as⟩, .obj ⟨bs⟩ => beqFields as bs
  | _, _ => false

def beqItems : List Json → List Json → Bool
  | [], [] => true
  | a :: as, b :: bs => beq a b && beqItems as bs
  | _, _ => false

def beqFields : List (String × Json) → List (String × Json) → Bool
  | [], [] => true
  | (k, a) :: as, (l, b) :: bs => k == l && beq a b && beqFields as bs
  | _, _ => false

end

instance : BEq Json := ⟨beq⟩

mutual

def canonical : Json → Json
  | .arr items => .arr (canonicalItems items)
  | .obj ⟨fields⟩ => .obj (Dict.ofList (canonicalFields fields))
  | j => j

def canonicalItems : List Json → List Json
  | [] => []
  | j :: rest => canonical j :: canonicalItems rest

def canonicalFields : List (String × Json) → List (String × Json)
  | [] => []
  | (k, j) :: rest => (k, canonical j) :: canonicalFields rest

end

def ofFields (fields : List (String × Json)) : Json := .obj (Dict.ofList fields)

def field? : Json → String → Option Json
  | .obj fields, name => fields.get? name
  | _, _ => none

def item? : Json → Nat → Option Json
  | .arr items, i => items[i]?
  | _, _ => none

def asStr? : Json → Option String
  | .str s => some s
  | _ => none

def asBool? : Json → Option Bool
  | .bool b => some b
  | _ => none

end Json

end Flowstep
