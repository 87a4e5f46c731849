import Flowstep.Decimal.Read
import Flowstep.Flow.Document
import Flowstep.Flow.Fragment
import Flowstep.Text.Blank

/-!
The steps of a flow.
-/
namespace Flowstep.Flow

inductive OnError where
  | exit
  | retry
  | skip
deriving DecidableEq, Repr, Inhabited

namespace OnError

def word : OnError → String
  | .exit => "exit"
  | .retry => "retry"
  | .skip => "skip"

def ofWord? : String → Option OnError
  | "exit" | "" => some .exit
  | "retry" => some .retry
  | "skip" => some .skip
  | _ => none

end OnError

inductive Expected where
  | policy
  | retryCount
  | interval
  | delay
deriving DecidableEq, Repr

def Expected.word : Expected → String
  | .policy => "error policy (exit, retry, skip)"
  | .retryCount => "retry count"
  | .interval => "interval in seconds"
  | .delay => "delay in seconds"

inductive ParamError where
  | coercion (name text : String) (expected : Expected)
  | badJson (name : String)
deriving DecidableEq, Repr

def ParamError.message : ParamError → String
  | .coercion name text expected =>
    "parameter `" ++ name ++ "`: `" ++ text ++ "` is not a valid " ++ expected.word
  | .badJson name => "parameter `" ++ name ++ "`: invalid JSON"

structure Options where
  onError : OnError := .exit
  retryCount : Nat := 0
  retryInterval : Float := 0
  delayBefore : Float := 0
  delayAfter : Float := 0
  printResult : Bool := false
deriving Inhabited

namespace Options

def wantsRetry (o : Options) : Bool := o.onError == .retry && o.retryCount > 0

def keys : List String :=
  ["__skip_err__", "__retry_time__", "__retry_interval__", "__delay_before__", "__delay_after__",
    "__res_print__"]

def number (key text : String) (expected : Expected) : Except ParamError Float :=
  let written := Text.trim text
  if written.isEmpty then .ok 0
  else match Decimal.readFloat? written with
    | some x => if x.isFinite && 0 ≤ x then .ok x else .error (.coercion key text expected)
    | none => .error (.coercion key text expected)

def set (o : Options) (key : String) (value : Json) : Except ParamError Options := do
  let text := String.join ((Fragment.ofValue value).map fun f => Code.literalText f.data)
  match key with
  | "__skip_err__" =>
    match OnError.ofWord? (Text.trim text) with
    | some policy => return { o with onError := policy }
    | none => throw (.coercion key text .policy)
  | "__retry_time__" => return { o with retryCount := (← number key text .retryCount).toUInt32.toNat }
  | "__retry_interval__" => return { o with retryInterval := ← number key text .interval }
  | "__delay_before__" => return { o with delayBefore := ← number key text .delay }
  | "__delay_after__" => return { o with delayAfter := ← number key text .delay }
  | "__res_print__" =>
    match value with
    | .bool flag => return { o with printResult := flag }
    | _ => return { o with printResult := ["true", "True", "1"].contains (Text.trim text) }
  | _ => return o

end Options

structure Input where
  name : String
  title : String
  value : List Fragment
  shown : Bool
  parse : Option String
deriving Inhabited

structure Output where
  name : String
  target : String
deriving Inhabited

structure Step where
  id : String := ""
  key : String := ""
  label : String := ""
  line : Nat := 0
  inputs : List Input := []
  outputs : List Output := []
  disabled : Bool := false
  breakpoint : Bool := false
  options : Options := {}
deriving Inhabited

namespace Input

def ofEntry (e : InputEntry) : Input :=
  { name := e.name.getD e.key, title := e.title, value := Fragment.ofValue e.value,
    shown := e.shown, parse := e.parse }

end Input

namespace Output

def ofEntry? (e : OutputEntry) : Option Output :=
  let target := Fragment.firstText (Fragment.ofValue e.value)
  if e.shown && !target.isEmpty then some ⟨e.key, target⟩ else none

end Output

namespace Step

def optionsOf (entries : List InputEntry) : Except ParamError Options :=
  entries.foldlM (fun o e => if Options.keys.contains e.key then o.set e.key e.value else .ok o) {}

def labelOf (e : StepEntry) : String :=
  match e.nickname with
  | some name => if name.isEmpty then e.title.getD "" else name
  | none => e.title.getD ""

def ofEntry (line : Nat) (e : StepEntry) : Except ParamError Step := do
  let options ← optionsOf e.inputs
  return {
    id := e.id, key := e.key, label := labelOf e, line
    inputs := (e.inputs.filter fun i => !Options.keys.contains i.key).map Input.ofEntry
    outputs := e.outputs.filterMap Output.ofEntry?
    disabled := e.disabled, breakpoint := e.breakpoint, options }

def shownInputs (s : Step) : List Input := s.inputs.filter (·.shown)

def input? (s : Step) (name : String) : Option Input := s.shownInputs.find? (·.name == name)

end Step

def Step.toJson (s : Step) : Json :=
  let input (i : Input) : Json :=
    .ofFields [("name", .str i.name), ("title", .str i.title),
      ("value", .arr (i.value.map Fragment.toJson)), ("show", .bool i.shown),
      ("need_parse", (i.parse.map Json.str).getD .null)]
  let output (o : Output) : Json := .ofFields [("name", .str o.name), ("variable", .str o.target)]
  let o := s.options
  .ofFields [("id", .str s.id), ("key", .str s.key), ("label", .str s.label),
    ("flow_line", .int s.line), ("inputs", .arr (s.inputs.map input)),
    ("outputs", .arr (s.outputs.map output)), ("disabled", .bool s.disabled),
    ("has_breakpoint", .bool s.breakpoint),
    ("advanced", .ofFields [("on_error", .str o.onError.word), ("retry_count", .int o.retryCount),
      ("retry_interval", .float o.retryInterval), ("delay_before", .float o.delayBefore),
      ("delay_after", .float o.delayAfter), ("print_result", .bool o.printResult)])]

def stepsFrom (window : Window) (line : Nat) : List StepEntry → Except ParamError (List Step)
  | [] => .ok []
  | e :: rest =>
    if e.disabled || !window.contains line then stepsFrom window (line + 1) rest
    else do
      let step ← Step.ofEntry line e
      return step :: (← stepsFrom window (line + 1) rest)

def steps (window : Window) (entries : List StepEntry) : Except ParamError (List Step) :=
  stepsFrom window 1 entries

end Flowstep.Flow
