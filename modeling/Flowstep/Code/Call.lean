import Flowstep.Code.Line
import Flowstep.Code.Param
import Flowstep.Flow.Tree

/-!
The script code of a single step: its call, its condition, what its results are bound to, and the
loop that makes the call again when it fails.
-/
namespace Flowstep.Code

open Flowstep.Flow (Step OnError ParamError)

structure Context where
  unit : String
  globals : List String
  debug : Bool
deriving Inhabited

namespace Context

def retries (c : Context) (s : Step) : Bool := s.options.wantsRetry && !c.debug

def place (c : Context) (s : Step) : String :=
  "__info__=[" ++ toString s.line ++ ", " ++ quote c.unit ++ "]"

def arguments (s : Step) : Except ParamError (List String) :=
  s.shownInputs.mapM fun i => (Argument.ofInput s.key i).map Argument.text

-- The arguments for the options of a step. A call that is to be made again fails each time, so that
-- the loop around it sees the failure.
def optionArguments (c : Context) (s : Step) : List String :=
  let policy := match s.options.onError with
    | .exit => []
    | .retry => ["__on_error__=" ++ quote OnError.exit.word]
    | .skip => ["__on_error__=" ++ quote OnError.skip.word]
  let before :=
    if 0 < s.options.delayBefore then
      ["__delay_before__=" ++ Decimal.plain.write s.options.delayBefore]
    else []
  let after :=
    if 0 < s.options.delayAfter then
      ["__delay_after__=" ++ Decimal.plain.write s.options.delayAfter]
    else []
  let print := if s.options.printResult then ["__print_result__=True"] else []
  let again := if c.retries s then ["__in_retry__=True"] else []
  policy ++ before ++ after ++ print ++ again

def call (c : Context) (s : Step) : Except ParamError String := do
  let given ← arguments s
  return s.key ++ "(" ++ Text.joinWith ", " (given ++ c.optionArguments s ++ [c.place s]) ++ ")"

def comparison (c : Context) (s : Step) : Except ParamError String := do
  let given ← arguments s
  return "consequence(" ++ Text.joinWith ", " (given ++ [c.place s]) ++ ")"

def targets (c : Context) (s : Step) : List String :=
  s.outputs.map fun o => targetOf c.globals o.target

def assignment (c : Context) (s : Step) : String :=
  if s.outputs.isEmpty then "" else Text.joinWith ", " (c.targets s) ++ " = "

def itemTargets (c : Context) (s : Step) : String :=
  if s.outputs.isEmpty then "__item_" ++ toString s.line ++ "__"
  else Text.joinWith ", " (c.targets s)

def retryRecord (c : Context) (s : Step) (status extra : String) : String :=
  "\x7b\"unit\": " ++ quote c.unit ++ ", \"line\": " ++ toString s.line ++ ", \"key\": " ++
    quote s.key ++ ", \"status\": \"" ++ status ++ "\"" ++ extra ++ "\x7d"

def retryLines (c : Context) (s : Step) (indent : Nat) (statement : String) : List Line :=
  let counter := "__retry_count_" ++ toString s.line ++ "__"
  let error := "__e_" ++ toString s.line ++ "__"
  let start := c.retryRecord s "start" ""
  let failed := c.retryRecord s "error" (", \"error\": str(" ++ error ++ ")")
  let retry := c.retryRecord s "retry"
    (", \"remaining\": " ++ counter ++ ", \"error\": str(" ++ error ++ ")")
  let pause :=
    if 0 < s.options.retryInterval then
      [Line.mk (indent + 2) ("sleep(" ++ Decimal.plain.write s.options.retryInterval ++ ")") none]
    else []
  [⟨indent, "report.info(" ++ start ++ ")", none⟩,
    ⟨indent, counter ++ " = " ++ toString s.options.retryCount, none⟩,
    ⟨indent, "while True:", none⟩,
    ⟨indent + 1, "try:", none⟩,
    ⟨indent + 2, statement, some s.line⟩,
    ⟨indent + 2, "break", none⟩,
    ⟨indent + 1, "except Exception as " ++ error ++ ":", none⟩,
    ⟨indent + 2, counter ++ " -= 1", none⟩,
    ⟨indent + 2, "if " ++ counter ++ " < 0:", none⟩,
    ⟨indent + 3, "report.error(" ++ failed ++ ")", none⟩,
    ⟨indent + 3, "raise", none⟩,
    ⟨indent + 2, "report.warn(" ++ retry ++ ")", none⟩] ++ pause

def callLines (c : Context) (s : Step) (indent : Nat) : Except ParamError (List Line) := do
  let statement := c.assignment s ++ (← c.call s)
  if c.retries s then return c.retryLines s indent statement
  else return [⟨indent, statement, some s.line⟩]

def headerLines (c : Context) (s : Step) (indent : Nat) (name : String)
    (header : String → String) : Except ParamError (List Line) := do
  let call ← c.call s
  let result := "__" ++ name ++ "_" ++ toString s.line ++ "__"
  if c.retries s then
    return c.retryLines s indent (result ++ " = " ++ call) ++ [⟨indent, header result, none⟩]
  else return [⟨indent, header call, some s.line⟩]

def loopOperand (s : Step) (name : String) (position : Nat) (default : String) :
    Except ParamError String :=
  match (s.input? name).or (s.shownInputs[position]?) with
  | some i => (Argument.ofInput s.key i).map Argument.code
  | none => .ok default

def rangeHeader (c : Context) (s : Step) : Except ParamError String := do
  let start ← loopOperand s "start" 0 "0"
  let stop ← loopOperand s "end" 1 "0"
  let stride ← loopOperand s "step" 2 "1"
  return "for " ++ (c.targets s).head?.getD "i" ++ " in range(int_param(\"start\", " ++ start ++
    "), int_param(\"end\", " ++ stop ++ "), int_param(\"step\", " ++ stride ++ ")):"

def listHeader (c : Context) (s : Step) : Except ParamError String := do
  let items ← loopOperand s "lists" 0 "[]"
  let list := "list_param(\"lists\", " ++ items ++ ")"
  match c.targets s with
  | index :: item :: _ => return "for " ++ index ++ ", " ++ item ++ " in enumerate(" ++ list ++ "):"
  | [item] => return "for " ++ item ++ " in " ++ list ++ ":"
  | [] => return "for item in " ++ list ++ ":"

def mapHeader (c : Context) (s : Step) : Except ParamError String := do
  let entries ← loopOperand s "dicts" 0 "\x7b\x7d"
  let (key, value) := match c.targets s with
    | key :: value :: _ => (key, value)
    | _ => ("key", "value")
  return "for " ++ key ++ ", " ++ value ++ " in items(dict_param(\"dicts\", " ++ entries ++ ")):"

end Context

end Flowstep.Code
