import Flowstep.Script.Error
import Flowstep.Script.Tree

/-!
Arithmetic, comparison and subscripts of script values.
-/
namespace Flowstep.Script

def checkedInt (n : Int) : Except Stop Value :=
  match Word.ofInt? n with
  | some w => .ok (.int w)
  | none => fail (.value "integer overflow")

def unsupported {α : Type} (op : String) (left right : Value) : Except Stop α :=
  failType (.operand op left.typeName right.typeName)

-- The remainder with the sign of the divisor, for a divisor other than zero. It is computed on words,
-- as the remainder of the truncated remainder plus the divisor, and abandoned if a step leaves the
-- range of a word.
def floorMod (a b : Int64) : Except Stop Value :=
  let r := a.toInt.tmod b.toInt
  if a.toInt = Word.least && b.toInt = -1 then .error .abort
  else
    match Word.ofInt? (r + b.toInt) with
    | some s => .ok (.int (Int64.ofInt (s.toInt.tmod b.toInt)))
    | none => .error .abort

def intBinary (op : BinOp) (a b : Int64) : Except Stop Value :=
  match op with
  | .add => checkedInt (a.toInt + b.toInt)
  | .sub => checkedInt (a.toInt - b.toInt)
  | .mul => checkedInt (a.toInt * b.toInt)
  | .div => if b = 0 then fail .zeroDivision else .ok (.float (Word.toFloat a / Word.toFloat b))
  | .mod => if b = 0 then fail .zeroDivision else floorMod a b

def floatBinary (op : BinOp) (a b : Float) : Except Stop Value :=
  match op with
  | .add => .ok (.float (a + b))
  | .sub => .ok (.float (a - b))
  | .mul => .ok (.float (a * b))
  | .div => if b == 0 then fail .zeroDivision else .ok (.float (a / b))
  | .mod => if b == 0 then fail .zeroDivision else .ok (.float (a - b * (a / b).floor))

-- A text written `n` times. A text that memory could not address is given up.
def repeatText (s : String) (n : Int64) : Except Stop Value :=
  if s.isEmpty || n ≤ 0 then .ok (.str "")
  else if Word.greatest < s.utf8ByteSize * n.toInt then .error .abort
  else .ok (.str (String.join (List.replicate n.toInt.toNat s)))

def repeatList (items : List Value) (n : Int64) : Except Stop Value :=
  if items.isEmpty || n ≤ 0 then .ok (.list [])
  else .ok (.list (List.replicate n.toInt.toNat items).flatten)

def joinBinary (op : BinOp) (left right : Value) : Except Stop Value :=
  match op, left, right with
  | .add, .str a, .str b => .ok (.str (a ++ b))
  | .add, .list a, .list b => .ok (.list (a ++ b))
  | .mul, .str s, .int n => repeatText s n
  | .mul, .int n, .str s => repeatText s n
  | .mul, .list items, .int n => repeatList items n
  | .mul, .int n, .list items => repeatList items n
  | _, _, _ => unsupported op.symbol left right

def binary (op : BinOp) (left right : Value) : Except Stop Value :=
  match left.asInt?, right.asInt? with
  | some a, some b => intBinary op a b
  | _, _ =>
    match left.asFloat?, right.asFloat? with
    | some a, some b => floatBinary op a b
    | _, _ => joinBinary op left right

def negateValue : Value → Except Stop Value
  | .int n => checkedInt (-n.toInt)
  | .float x => .ok (.float (-x))
  | .bool flag => .ok (.int (if flag then -1 else 0))
  | other => failType (.operand "unary -" other.typeName "")

def contains (container item : Value) : Except Stop Bool :=
  match container, item with
  | .list items, item => .ok (items.any (·.looseEq item))
  | .map entries, .str key => .ok (entries.contains key)
  | .map _, _ => .ok false
  | .str text, .str needle => .ok (Text.hasInfix text needle)
  | container, item => unsupported "in" item container

def CmpOp.holds : CmpOp → Ordering → Bool
  | .lt, ord => ord == .lt
  | .le, ord => ord != .gt
  | .gt, ord => ord == .gt
  | _, ord => ord != .lt

def compareValues (op : CmpOp) (left right : Value) : Except Stop Bool :=
  match op with
  | .eq => .ok (left.looseEq right)
  | .ne => .ok (!left.looseEq right)
  | .isIn => contains right left
  | .notIn => (contains right left).map (!·)
  | op =>
    match left.order right with
    | some ord => .ok (op.holds ord)
    | none => unsupported op.symbol left right

def itemIndex (len : Nat) (key : Value) (typeName : String) : Except Stop Nat :=
  match key.asInt? with
  | none =>
    failArguments (typeName ++ ".__getitem__") ("indices must be integers, not " ++ key.typeName)
  | some i =>
    let resolved := if i < 0 then i.toInt + len else i.toInt
    if resolved < 0 || (len : Int) ≤ resolved then fail (.index typeName)
    else .ok resolved.toNat

def itemAt (items : List Value) (i : Nat) : Value := (items[i]?).getD .none

def getItem (container key : Value) : Except Stop Value :=
  match container with
  | .map entries =>
    match entries.get? key.display with
    | some v => .ok v
    | none => fail (.key key.display)
  | .list items => do
    let i ← itemIndex items.length key "list"
    return itemAt items i
  | .str text => do
    let i ← itemIndex text.length key "string"
    return .str (String.ofList ((text.toList.drop i).take 1))
  | other => failType (.notSubscriptable other.typeName)

def setItem (container key value : Value) : Except Stop Value :=
  match container with
  | .map entries => .ok (.map (entries.insert key.display value))
  | .list items => do
    let i ← itemIndex items.length key "list"
    return .list (items.set i value)
  | other => failType (.notSubscriptable other.typeName)

-- Applies `f` to the item that a chain of subscripts selects, and gives the container with the changed
-- item and what `f` found out. All items on the way have to be there.
def updateAt {α : Type} (f : Value → Except Stop (Value × α)) :
    List Value → Value → Except Stop (Value × α)
  | [], v => f v
  | key :: keys, .map entries =>
    match entries.get? key.display with
    | some v => do
      let (v, a) ← updateAt f keys v
      return (.map (entries.insert key.display v), a)
    | none => fail (.key key.display)
  | key :: keys, .list items => do
    let i ← itemIndex items.length key "list"
    let (v, a) ← updateAt f keys (itemAt items i)
    return (.list (items.set i v), a)
  | _ :: _, other => failType (.notSubscriptable other.typeName)

end Flowstep.Script
