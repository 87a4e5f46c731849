import Flowstep.Script.Builtin
import Flowstep.Text.Case

/-!
The methods of maps, lists and texts. A method gives its result and the receiver after the call.
-/
namespace Flowstep.Script.Method

def missing {α : Type} (receiver : Value) (method : String) : Except Stop α :=
  fail (.attribute receiver.typeName method)

def argument (args : Args) (position : Nat) (method what : String) : Except Stop Value :=
  match args.positional[position]? with
  | some v => .ok v
  | none => failArguments method ("missing required argument '" ++ what ++ "'")

def callMap (entries : Dict Value) (method : String) (args : Args) : Except Stop (Value × Value) :=
  match method with
  | "get" => do
    let key ← argument args 0 method "key"
    let default := (args.positional[1]?).getD .none
    return (.map entries, entries.getD key.display default)
  | "keys" => .ok (.map entries, .list (entries.keys.map .str))
  | "values" => .ok (.map entries, .list entries.values)
  | "items" => .ok (.map entries, pairs entries)
  | "copy" => .ok (.map entries, .map entries)
  | "update" =>
    let entries := match args.positional[0]? with
      | some (Value.map other) => entries.union other
      | _ => entries
    .ok (.map (args.keywords.foldl (fun m e => m.insert e.1 e.2) entries), .none)
  | "pop" => do
    let key ← argument args 0 method "key"
    match entries.get? key.display, args.positional[1]? with
    | some v, _ => return (.map (entries.erase key.display), v)
    | none, some default => return (.map entries, default)
    | none, none => fail (.key key.display)
  | "setdefault" => do
    let key ← argument args 0 method "key"
    let default := (args.positional[1]?).getD .none
    match entries.get? key.display with
    | some v => return (.map entries, v)
    | none => return (.map (entries.insert key.display default), default)
  | _ => missing (.map entries) method

def insertPosition (len : Nat) (i : Int64) : Nat :=
  if i < 0 then (i.toInt + len).toNat else min i.toInt.toNat len

def callList (items : List Value) (method : String) (args : Args) : Except Stop (Value × Value) :=
  match method with
  | "append" => do
    let v ← argument args 0 method "object"
    return (.list (items ++ [v]), .none)
  | "extend" => do
    let more ← iterate (← argument args 0 method "iterable")
    return (.list (items ++ more), .none)
  | "insert" => do
    match (args.positional[0]?).bind Value.asInt? with
    | none => failArguments method "missing required argument 'index'"
    | some i =>
      let v ← argument args 1 method "object"
      return (.list (items.insertIdx (insertPosition items.length i) v), .none)
  | "pop" => do
    if items.isEmpty then fail (.index "pop from empty list")
    else
      let i ← match args.positional[0]? with
        | some key => itemIndex items.length key "pop"
        | none => pure (items.length - 1)
      return (.list (items.eraseIdx i), itemAt items i)
  | "index" => do
    let needle ← argument args 0 method "value"
    match items.findIdx? (·.looseEq needle) with
    | some i => return (.list items, .int (Int64.ofNat i))
    | none => fail (.value (needle.repr ++ " is not in list"))
  | "count" => do
    let needle ← argument args 0 method "value"
    return (.list items, .int (Int64.ofNat (items.countP (·.looseEq needle))))
  | "copy" => .ok (.list items, .list items)
  | _ => missing (.list items) method

def callText (text method : String) (args : Args) : Except Stop Value :=
  let textArg (i : Nat) : String := ((args.positional[i]?).map Value.display).getD ""
  match method with
  | "upper" => .ok (.str (Text.toUpper text))
  | "lower" => .ok (.str (Text.toLower text))
  | "strip" => .ok (.str (Text.trim text))
  | "lstrip" => .ok (.str (Text.trimStart text))
  | "rstrip" => .ok (.str (Text.trimEnd text))
  | "startswith" => .ok (.bool (Text.startsWith text (textArg 0)))
  | "endswith" => .ok (.bool (Text.endsWith text (textArg 0)))
  | "find" =>
    match Text.indexOfSeq (textArg 0).toList text.toList with
    | some i => .ok (.int (Int64.ofNat i))
    | none => .ok (.int (-1))
  | "replace" => .ok (.str (Text.replaceAll text (textArg 0) (textArg 1)))
  | "split" =>
    let parts := if (textArg 0).isEmpty then Text.words text else Text.splitBy (textArg 0) text
    .ok (.list (parts.map .str))
  | "join" => do
    let items ← match args.positional[0]? with
      | some v => iterate v
      | none => pure []
    return .str (Text.joinWith text (items.map Value.display))
  | _ => missing (.str text) method

def call (receiver : Value) (method : String) (args : Args) : Except Stop (Value × Value) :=
  match receiver with
  | .map entries => callMap entries method args
  | .list items => callList items method args
  | .str text => (callText text method args).map fun v => (.str text, v)
  | other => missing other method

end Flowstep.Script.Method
