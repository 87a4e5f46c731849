import Flowstep.Category
import Flowstep.Json.Basic
import Flowstep.Text.Search
import Flowstep.Word

/-!
The values a script works on, their text, equality and order, and their JSON form.
-/
namespace Flowstep.Script

inductive Value where
  | none
  | bool (flag : Bool)
  | int (n : Int64)
  | float (x : Float)
  | str (text : String)
  | list (items : List Value)
  | map (entries : Dict Value)
  | element (description : Value)
  | unit (id : String) (category : Category)
deriving Inhabited

namespace Value

def typeName : Value → String
  | .none => "NoneType"
  | .bool _ => "bool"
  | .int _ => "int"
  | .float _ => "float"
  | .str _ => "str"
  | .list _ => "list"
  | .map _ => "dict"
  | .element _ => "element"
  | .unit _ _ => "unit"

def truthy : Value → Bool
  | .none => false
  | .bool flag => flag
  | .int n => n != 0
  | .float x => x != 0
  | .str s => !s.isEmpty
  | .list items => !items.isEmpty
  | .map entries => !entries.isEmpty
  | .element _ => true
  | .unit _ _ => true

def asFloat? : Value → Option Float
  | .int n => some (Word.toFloat n)
  | .float x => some x
  | .bool flag => some (if flag then 1 else 0)
  | _ => .none

def asInt? : Value → Option Int64
  | .int n => some n
  | .bool flag => some (if flag then 1 else 0)
  | _ => .none

-- Doubles are written without an exponent; integral ones below `1e16` show a zero after the point.
def floatLayout : Decimal.Layout where
  tie := .up
  positional _ := true
  keepsPoint e := e < 16

def floatText (x : Float) : String := floatLayout.write x

def quotedText (s : String) : String :=
  "'" ++ Text.replaceAll (Text.replaceAll s "\\" "\\\\") "'" "\\'" ++ "'"

mutual

def repr : Value → String
  | .none => "None"
  | .bool true => "True"
  | .bool false => "False"
  | .int n => toString n.toInt
  | .float x => floatText x
  | .str s => quotedText s
  | .list items => "[" ++ Text.joinWith ", " (reprItems items) ++ "]"
  | .map ⟨entries⟩ => "\x7b" ++ Text.joinWith ", " (reprEntries entries) ++ "\x7d"
  | .element d => "element(" ++ repr d ++ ")"
  | .unit id _ => "<unit " ++ id ++ ">"

def reprItems : List Value → List String
  | [] => []
  | v :: rest => repr v :: reprItems rest

def reprEntries : List (String × Value) → List String
  | [] => []
  | (k, v) :: rest => ("'" ++ k ++ "': " ++ repr v) :: reprEntries rest

end

def display : Value → String
  | .str s => s
  | v => repr v

mutual

def beq : Value → Value → Bool
  | .none, .none => true
  | .bool a, .bool b => a == b
  | .int a, .int b => a == b
  | .float a, .float b => a == b
  | .str a, .str b => a == b
  | .list as, .list bs => beqItems as bs
  | .map ⟨as⟩, .map ⟨bs⟩ => beqEntries as bs
  | .element a, .element b => beq a b
  | .unit i c, .unit j d => i == j && c == d
  | _, _ => false

def beqItems : List Value → List Value → Bool
  | [], [] => true
  | a :: as, b :: bs => beq a b && beqItems as bs
  | _, _ => false

def beqEntries : List (String × Value) → List (String × Value) → Bool
  | [], [] => true
  | (k, a) :: as, (l, b) :: bs => k == l && beq a b && beqEntries as bs
  | _, _ => false

end

instance : BEq Value := ⟨beq⟩

def asNumber? : Value → Option Float
  | .int n => some (Word.toFloat n)
  | .float x => some x
  | _ => .none

def looseEq (a b : Value) : Bool :=
  match a.asNumber?, b.asNumber? with
  | some x, some y => x == y
  | _, _ => a == b

def orderFloat (x y : Float) : Option Ordering :=
  if x < y then some .lt
  else if x == y then some .eq
  else if y < x then some .gt
  else .none

mutual

def order : Value → Value → Option Ordering
  | .str a, .str b => some (compare a b)
  | .list as, .list bs => orderItems as bs
  | a, b =>
    match a.asFloat?, b.asFloat? with
    | some x, some y => orderFloat x y
    | _, _ => .none

def orderItems : List Value → List Value → Option Ordering
  | [], [] => some .eq
  | [], _ :: _ => some .lt
  | _ :: _, [] => some .gt
  | a :: as, b :: bs =>
    match order a b with
    | some .eq => orderItems as bs
    | decided => decided

end

mutual

def toJson : Value → Json
  | .none => .null
  | .bool flag => .bool flag
  | .int n => .int n.toInt
  | .float x => if x.isFinite then .float x else .null
  | .str s => .str s
  | .list items => .arr (toJsonItems items)
  | .map ⟨entries⟩ => .obj ⟨toJsonEntries entries⟩
  | .element d => .obj ⟨[("__element__", toJson d)]⟩
  | .unit id category => .obj ⟨[("__unit__", .str id), ("category", .str category.word)]⟩

def toJsonItems : List Value → List Json
  | [] => []
  | v :: rest => toJson v :: toJsonItems rest

def toJsonEntries : List (String × Value) → List (String × Json)
  | [] => []
  | (k, v) :: rest => (k, toJson v) :: toJsonEntries rest

end

def ofInt (n : Int) : Value :=
  match Word.ofInt? n with
  | .some w => .int w
  | .none => .float (UInt64.ofNat n.toNat).toFloat

mutual

-- The value of a JSON form. An object with the single field `__element__` stands for an element.
def ofJson : Json → Value
  | .null => .none
  | .bool flag => .bool flag
  | .int n => ofInt n
  | .float x => .float x
  | .str s => .str s
  | .arr items => .list (ofJsonItems items)
  | .obj ⟨[("__element__", d)]⟩ => .element (ofJson d)
  | .obj ⟨fields⟩ => .map ⟨ofJsonFields fields⟩

def ofJsonItems : List Json → List Value
  | [] => []
  | j :: rest => ofJson j :: ofJsonItems rest

def ofJsonFields : List (String × Json) → List (String × Value)
  | [] => []
  | (k, j) :: rest => (k, ofJson j) :: ofJsonFields rest

end

end Value

end Flowstep.Script
