import Flowstep.Json.Written

/-!
Records inside JSON documents.
-/
namespace Flowstep.Json

abbrev Reader (α : Type) := Written → Option α

namespace Reader

variable {α : Type}

def tree : Reader Json := Written.value?

def text : Reader String
  | .str s => some s
  | _ => none

def flag : Reader Bool
  | .bool b => some b
  | _ => none

def below (limit : Nat) : Reader Nat
  | .int n => if 0 ≤ n ∧ n < limit then some n.toNat else none
  | _ => none

def natural : Reader Nat := below UInt64.size

def list (item : Reader α) : Reader (List α)
  | .arr items => items.mapM item
  | _ => none

def optional (r : Reader α) : Reader (Option α)
  | .null => some none
  | w => (r w).map some

def dict (r : Reader α) : Reader (Dict α)
  | .obj fields => (fields.mapM fun e => (r e.2).map fun v => (e.1, v)).map Dict.ofList
  | _ => none

def word (ofWord? : String → Option α) : Reader α
  | .str s => ofWord? s
  | .obj [(s, .null)] => ofWord? s
  | _ => none

def looseWord (ofWord? : String → Option α) : Reader α
  | .obj [(s, .obj [])] => ofWord? s
  | w => word ofWord? w

end Reader

abbrev Slot := Option Written

namespace Slot

variable {α : Type}

def required (s : Slot) (r : Reader α) : Option α := Option.bind s r

def getD (s : Slot) (r : Reader α) (default : α) : Option α :=
  match s with
  | none => some default
  | some w => r w

def optional (s : Slot) (r : Reader α) : Option (Option α) := getD s r.optional none

end Slot

def slotOf (fields : List (String × Written)) (name : String) : Option Slot :=
  match fields.filter (·.1 == name) with
  | [] => some none
  | [e] => some (some e.2)
  | _ => none

def objectSlots (names : List String) : Written → Option (List Slot)
  | .obj fields => names.mapM (slotOf fields)
  | _ => none

def slots (names : List String) : Written → Option (List Slot)
  | .arr items =>
    if items.length ≤ names.length then some (names.mapIdx fun i _ => items[i]?) else none
  | w => objectSlots names w

end Flowstep.Json
