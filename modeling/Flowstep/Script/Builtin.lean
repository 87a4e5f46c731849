import Flowstep.Json.Parser
import Flowstep.Script.Operator
import Flowstep.Text.Blank

/-!
The functions that every script may call and that touch nothing outside of their arguments.
-/
namespace Flowstep.Script

structure Args where
  positional : List Value
  keywords : List (String × Value)

namespace Args

def get? (args : Args) (name : String) (position : Nat) : Option Value :=
  match args.keywords.lookup name with
  | some v => some v
  | none => args.positional[position]?

def required (args : Args) (function name : String) (position : Nat) : Except Stop Value :=
  match args.get? name position with
  | some v => .ok v
  | none => failArguments function ("missing required argument '" ++ name ++ "'")

end Args

def iterate : Value → Except Stop (List Value)
  | .list items => .ok items
  | .map entries => .ok (entries.keys.map .str)
  | .str text => .ok (text.toList.map fun c => .str (String.singleton c))
  | other => failType (.notIterable other.typeName)

def pairs (entries : Dict Value) : Value :=
  .list (entries.entries.map fun e => .list [.str e.1, e.2])

namespace Builtin

def names : List String :=
  ["str", "int", "float", "bool", "len", "list", "dict", "range", "enumerate", "items", "abs", "min",
   "max", "round", "isinstance", "consequence", "int_param", "list_param", "dict_param", "element",
   "process", "module"]

def isBuiltin (name : String) : Bool := names.contains name

def length : Value → Except Stop Value
  | .str text => .ok (.int (Int64.ofNat text.length))
  | .list items => .ok (.int (Int64.ofNat items.length))
  | .map entries => .ok (.int (Int64.ofNat entries.size))
  | other => failArguments "len" ("object of type '" ++ other.typeName ++ "' has no len")

def toInt : Value → Except Stop Int64
  | .int n => .ok n
  | .bool flag => .ok (if flag then 1 else 0)
  | .float x =>
    if x.isFinite then .ok (Decimal.truncate x).toInt64
    else failArguments "int" "argument must be a string or a number, not 'float'"
  | .str text =>
    match Decimal.readInt64? (Text.trim text) with
    | some n => .ok n
    | none => fail (.value ("invalid literal for int(): '" ++ text ++ "'"))
  | other =>
    failArguments "int" ("argument must be a string or a number, not '" ++ other.typeName ++ "'")

def toFloat : Value → Except Stop Float
  | .str text =>
    match Decimal.readFloat? (Text.trim text) with
    | some x => .ok x
    | none => fail (.value ("could not convert string to float: '" ++ text ++ "'"))
  | other =>
    match other.asFloat? with
    | some x => .ok x
    | none =>
      failArguments "float" ("argument must be a string or a number, not '" ++ other.typeName ++ "'")

def maxRangeLength : Int := 10000000

-- The number of items of a range with a step other than zero. The distance and the size of the step
-- are words, so they stop at the greatest word.
def rangeCount (first last step : Int) : Int :=
  let span := if 0 < step then Word.saturate (last - first) else Word.saturate (first - last)
  if span ≤ 0 then 0 else (span - 1) / Word.saturate step.natAbs + 1

def rangeOf (first last step : Int) : Except Stop Value :=
  if step = 0 then fail (.value "range() arg 3 must not be zero")
  else
    let count := rangeCount first last step
    if maxRangeLength < count then
      fail (.value ("range of " ++ toString count ++ " items is too large"))
    else
      .ok (.list ((List.range count.toNat).map fun (i : Nat) =>
        .int (Int64.ofInt (first + i * step))))

def rangeArgument : Value → Except Stop Int
  | .int n => .ok n.toInt
  | other =>
    failArguments "range" ("'" ++ other.typeName ++ "' object cannot be interpreted as an integer")

def range (args : Args) : Except Stop Value := do
  match ← args.positional.mapM rangeArgument with
  | [last] => rangeOf 0 last 1
  | [first, last] => rangeOf first last 1
  | [first, last, step] => rangeOf first last step
  | _ => failArguments "range" "expected 1 to 3 arguments"

def bestOf (want : Ordering) : Value → List Value → Except Stop Value
  | best, [] => .ok best
  | best, v :: rest =>
    match v.order best with
    | some ord => bestOf want (if ord == want then v else best) rest
    | none => failType (.operand "<" v.typeName best.typeName)

def extremum (name : String) (want : Ordering) (args : Args) : Except Stop Value := do
  let items ← match args.positional with
    | [single] => iterate single
    | many => pure many
  match items with
  | [] => fail (.value (name ++ "() arg is an empty sequence"))
  | first :: rest => bestOf want first rest

-- The absolute value. That of the least integer is no word, and the run is given up.
def absolute : Value → Except Stop Value
  | .int n =>
    match Word.ofInt? n.toInt.natAbs with
    | some m => .ok (.int m)
    | none => .error .abort
  | .float x => .ok (.float x.abs)
  | other => failArguments "abs" ("bad operand type '" ++ other.typeName ++ "'")

def powerFrom : Nat → Float → Float → Nat → Float
  | 0, _, product, _ => product
  | fuel + 1, base, product, n =>
    let product := if n % 2 = 1 then product * base else product
    if n / 2 = 0 then product else powerFrom fuel (base * base) product (n / 2)

def powerOfTen (n : Int32) : Float :=
  let p := powerFrom 32 10 1 n.toInt.natAbs
  if n < 0 then 1 / p else p

def round (args : Args) : Except Stop Value := do
  let v ← args.required "round" "number" 0
  match v.asFloat? with
  | none => failArguments "round" ("bad operand type '" ++ v.typeName ++ "'")
  | some x =>
    match args.get? "ndigits" 1 with
    | some (.int digits) =>
      let factor := powerOfTen digits.toInt32
      return .float ((x * factor).round / factor)
    | _ => return .int x.round.toInt64

def isIntegerText (s : String) : Bool :=
  let digits := match s.toList with
    | '-' :: rest => rest
    | cs => cs
  !digits.isEmpty && digits.all Decimal.isDigit

def isDecimalText (s : String) : Bool :=
  let body := match s.toList with
    | '-' :: rest => rest
    | cs => cs
  match body.span (· ≠ '.') with
  | (_, []) => false
  | (whole, _ :: fraction) =>
    whole.all Decimal.isDigit && !fraction.isEmpty && fraction.all Decimal.isDigit

def conditionTruth : Value → Bool
  | .str text =>
    let word := String.ofList ((Text.trim text).toList.map Char.toLower)
    !(["", "false", "0", "no", "none"].contains word)
  | other => other.truthy

-- An operand of an ordering condition: texts that look like numbers become numbers, and values that
-- are no numbers become texts.
def orderingOperand : Value → Value
  | .str text =>
    if isIntegerText text then
      match Decimal.readInt64? text with
      | some n => .int n
      | none => .str text
    else if isDecimalText text then
      match Decimal.readFloat? text with
      | some x => .float x
      | none => .str text
    else .str text
  | .int n => .int n
  | .float x => .float x
  | other => .str other.display

def sameType (a b : Value) : Bool := a.typeName == b.typeName

def conditionEq (a b : Value) : Bool :=
  if sameType a b then a == b else a.display == b.display

def isEmptyOperand : Value → Bool
  | .none => true
  | .str text => (Text.trim text).isEmpty
  | _ => false

def haystack (v : Value) : Value :=
  match v with
  | .str text =>
    if Text.startsWith text "[" || Text.startsWith text "\x7b" then
      match Json.parse? text with
      | some j => .ofJson j
      | none => v
    else v
  | v => v

def conditionContains (v : Value) (needle : String) : Bool :=
  match haystack v with
  | .list items => items.any (·.display == needle)
  | .map entries => entries.contains needle
  | .str text => Text.hasInfix text needle
  | _ => false

def conditionOrder (condition : String) (op : CmpOp) (left right : Value) : Except Stop Bool :=
  let a := orderingOperand left
  let b := orderingOperand right
  match a.order b with
  | some ord => .ok (op.holds ord)
  | none => failType (.operand condition a.typeName b.typeName)

def conditionHolds (left : Value) (condition : String) (right : Value) : Except Stop Bool :=
  match condition with
  | "true" => .ok (conditionTruth left)
  | "false" => .ok (!conditionTruth left)
  | "empty" => .ok (isEmptyOperand left)
  | "notempty" => .ok (!isEmptyOperand left)
  | ">" => conditionOrder condition .gt left right
  | "<" => conditionOrder condition .lt left right
  | ">=" => conditionOrder condition .ge left right
  | "<=" => conditionOrder condition .le left right
  | "==" => .ok (conditionEq left right)
  | "!=" => .ok (!conditionEq left right)
  | "in" => .ok (conditionContains left right.display)
  | "notin" => .ok (!conditionContains left right.display)
  | _ => .ok false

def consequence (args : Args) : Except Stop Value := do
  let left := (args.get? "args1" 0).getD .none
  let condition := ((args.get? "condition" 1).map Value.display).getD ""
  let right := (args.get? "args2" 2).getD .none
  return .bool (← conditionHolds left condition right)

def coerceInt? : Value → Option Int64
  | .int n => some n
  | .bool flag => some (if flag then 1 else 0)
  | .float x => if Decimal.isIntegral x then some x.toInt64 else none
  | .str text => Decimal.readInt64? (Text.trim text)
  | _ => none

def coerceList? : Value → Option (List Value)
  | .list items => some items
  | .str text =>
    if (Text.trim text).isEmpty then some []
    else
      match (Json.parse? text).map Value.ofJson with
      | some (.list items) => some items
      | _ => none
  | .none => some []
  | _ => none

def coerceMap? : Value → Option (Dict Value)
  | .map entries => some entries
  | .str text =>
    if (Text.trim text).isEmpty then some ∅
    else
      match (Json.parse? text).map Value.ofJson with
      | some (.map entries) => some entries
      | _ => none
  | .none => some ∅
  | _ => none

def coerced (function expected : String) (read : Value → Option Value) (args : Args) :
    Except Stop Value := do
  let label ← args.required function "name" 0
  let value ← args.required function "value" 1
  match read value with
  | some v => return v
  | none => fail (.param label.display value.repr expected)

def unitReference (function : String) (category : Category) (args : Args) : Except Stop Value := do
  let id ← args.required function "id" 0
  return .unit id.display category

def call (name : String) (args : Args) : Except Stop Value :=
  match name with
  | "str" => .ok (.str (((args.get? "object" 0).map Value.display).getD ""))
  | "int" => (toInt ((args.get? "x" 0).getD (.int 0))).map .int
  | "float" => (toFloat ((args.get? "x" 0).getD (.float 0))).map .float
  | "bool" => .ok (.bool (((args.get? "x" 0).map Value.truthy).getD false))
  | "len" => do length (← args.required name "obj" 0)
  | "list" =>
    match args.get? "iterable" 0 with
    | some v => (iterate v).map .list
    | none => .ok (.list [])
  | "dict" =>
    match args.get? "mapping" 0 with
    | some (.map entries) => .ok (.map entries)
    | some other => failType (.notIterable other.typeName)
    | none => .ok (.map (Dict.ofList args.keywords))
  | "range" => range args
  | "enumerate" => do
    let items ← iterate (← args.required name "iterable" 0)
    return .list (items.mapIdx fun i v => .list [.int (Int64.ofNat i), v])
  | "items" => do
    match ← args.required name "mapping" 0 with
    | .map entries => return pairs entries
    | other => failArguments name ("expected dict, got " ++ other.typeName)
  | "abs" => do absolute (← args.required name "x" 0)
  | "min" => extremum name .lt args
  | "max" => extremum name .gt args
  | "round" => round args
  | "isinstance" => do
    let v ← args.required name "obj" 0
    let expected ← args.required name "class" 1
    return .bool (v.typeName == expected.display)
  | "consequence" => consequence args
  | "int_param" => coerced name "int" (fun v => (coerceInt? v).map .int) args
  | "list_param" => coerced name "list" (fun v => (coerceList? v).map .list) args
  | "dict_param" => coerced name "dict" (fun v => (coerceMap? v).map .map) args
  | "element" => .ok (.element ((args.get? "desc" 0).getD .none))
  | "process" => unitReference name .process args
  | "module" => unitReference name .module args
  | other => fail (.name other)

end Builtin

end Flowstep.Script
