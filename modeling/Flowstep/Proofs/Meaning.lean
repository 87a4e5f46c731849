import Flowstep.Proofs.LineText
import Flowstep.Proofs.Spelling

/-!
The script that a flow stands for, built from its statements without any text.
-/
namespace Flowstep.Code

open Flowstep.Flow (Fragment Input Step Statement Clause Gate LoopKind Variable)
open Script (Expr Stmt StmtKind Target Arm Handler Suite pathExpr)

def numberExpr (n : Int) : Expr := .lit (.int (Int64.ofInt n))

def textExpr (s : String) : Expr := .lit (.str s)

mutual

def literalExpr : Json → Expr
  | .null => .lit .none
  | .bool b => .lit (.bool b)
  | .int n => numberExpr n
  | .float x => .lit (.float x)
  | .str s => textExpr s
  | .arr items => .list (literalExprs items)
  | .obj ⟨fields⟩ => .dict (literalEntries fields)

def literalExprs : List Json → List Expr
  | [] => []
  | j :: rest => literalExpr j :: literalExprs rest

def literalEntries : List (String × Json) → List (Expr × Expr)
  | [] => []
  | (k, j) :: rest => (textExpr k, literalExpr j) :: literalEntries rest

end

def globalExpr (name : String) : Expr := .index (.name "gv") (textExpr name)

def pieceExpr (f : Fragment) : Expr :=
  match f.tag with
  | .text | .other | .element => literalExpr f.data
  | .globalVariable => globalExpr (literalText f.data)
  | .expression | .flowVariable | .parameter => .name (literalText f.data)

def callOf (name : String) (args : List Expr) : Expr := .call (.name name) args []

def operandExpr (fragments : List Fragment) : Expr :=
  if fragments.any (·.tag.needsEvaluation) then
    match fragments with
    | [] => textExpr ""
    | [f] => pieceExpr f
    | f :: rest => (rest.map fun g => callOf "str" [pieceExpr g]).foldl (.bin .add) (callOf "str" [pieceExpr f])
  else
    match fragments with
    | [f] => literalExpr f.data
    | fs => textExpr (String.join (fs.map fun f => literalText f.data))

def heldValue (i : Input) : Json :=
  let text := Fragment.firstText i.value
  if (Text.trim text).isEmpty then .null else (Json.parse? text).getD .null

def inputExpr (key : String) (i : Input) : Expr :=
  if i.parse = some "json_str" then literalExpr (heldValue i)
  else match Argument.referenceOf key i with
    | some r => callOf r.word [operandExpr i.value]
    | none => operandExpr i.value

def secondsExpr (x : Float) : Expr :=
  match Script.numberToken 0 (Decimal.plain.write x).toList with
  | .ok (.int n, _) => .lit (.int n)
  | .ok (.float y, _) => .lit (.float y)
  | _ => .lit .none

def keyPath (key : String) : List String := (key.toList.splitOn '.').map String.ofList

namespace Context

def placeExpr (c : Context) (s : Step) : String × Expr :=
  ("__info__", .list [numberExpr s.line, textExpr c.unit])

def argumentExprs (s : Step) : List (String × Expr) := s.shownInputs.map fun i => (i.name, inputExpr s.key i)

def optionExprs (c : Context) (s : Step) : List (String × Expr) :=
  (match s.options.onError with
    | .exit => []
    | .retry => [("__on_error__", textExpr "exit")]
    | .skip => [("__on_error__", textExpr "skip")]) ++
  (if 0 < s.options.delayBefore then [("__delay_before__", secondsExpr s.options.delayBefore)] else []) ++
  (if 0 < s.options.delayAfter then [("__delay_after__", secondsExpr s.options.delayAfter)] else []) ++
  (if s.options.printResult then [("__print_result__", .lit (.bool true))] else []) ++
  (if c.retries s then [("__in_retry__", .lit (.bool true))] else [])

def callWith (c : Context) (s : Step) (values : List (String × Expr)) : Expr :=
  .call (pathExpr (keyPath s.key)) [] (values ++ c.optionExprs s ++ [c.placeExpr s])

def callExpr (c : Context) (s : Step) : Expr := c.callWith s (argumentExprs s)

def comparisonExpr (c : Context) (s : Step) : Expr :=
  .call (.name "consequence") [] (argumentExprs s ++ [c.placeExpr s])

def targetAt (c : Context) (name : String) : Target :=
  if c.globals.contains name then .index (.name "gv") (textExpr name) else .name name

def boundTo (c : Context) (s : Step) : List Target := s.outputs.map fun o => c.targetAt o.target

def recordExpr (c : Context) (s : Step) (status : String) (extra : List (Expr × Expr)) : Expr :=
  .dict ([(textExpr "unit", textExpr c.unit), (textExpr "line", numberExpr s.line), (textExpr "key", textExpr s.key),
    (textExpr "status", textExpr status)] ++ extra)

def reportExpr (kind : String) (record : Expr) : Expr := .call (.attr (.name "report") kind) [record] []

def counterName (s : Step) : String := "__retry_count_" ++ toString s.line ++ "__"

def errorName (s : Step) : String := "__e_" ++ toString s.line ++ "__"

def failureExpr (s : Step) : Expr × Expr := (textExpr "error", callOf "str" [.name (errorName s)])

def lastFailure (c : Context) (s : Step) (line : Nat) : StmtKind :=
  .ifChain [⟨line, .cmp .lt (.name (counterName s)) (numberExpr 0),
    [⟨line + 1, .expr (reportExpr "error" (c.recordExpr s "error" [failureExpr s]))⟩, ⟨line + 2, .raise none⟩]⟩] none

def retryHandler (c : Context) (s : Step) (line : Nat) : Handler :=
  ⟨line, some (errorName s),
    [⟨line + 1, .augAssign (.name (counterName s)) .sub (numberExpr 1)⟩, ⟨line + 2, c.lastFailure s (line + 2)⟩,
      ⟨line + 5, .expr (reportExpr "warn"
        (c.recordExpr s "retry" [(textExpr "remaining", .name (counterName s)), failureExpr s]))⟩] ++
    if 0 < s.options.retryInterval then
      [⟨line + 6, .expr (callOf "sleep" [secondsExpr s.options.retryInterval])⟩] else []⟩

-- The loop that makes an attempt again. The attempt may take several lines; what comes after it starts at `after`.
def retryStmts (c : Context) (s : Step) (line after : Nat) (attempt : StmtKind) : List Stmt :=
  [⟨line, .expr (reportExpr "info" (c.recordExpr s "start" []))⟩,
    ⟨line + 1, .assign [.name (counterName s)] (numberExpr s.options.retryCount)⟩,
    ⟨line + 2, .whileLoop (.lit (.bool true))
      [⟨line + 3, .tryBlock [⟨line + 4, attempt⟩, ⟨after, .break⟩] (some (c.retryHandler s (after + 1))) none⟩]⟩]

def callKind (c : Context) (s : Step) : StmtKind :=
  if s.outputs.isEmpty then .expr (c.callExpr s) else .assign (c.boundTo s) (c.callExpr s)

def callStmts (c : Context) (s : Step) (line : Nat) : List Stmt :=
  if c.retries s then c.retryStmts s line (line + 5) (c.callKind s) else [⟨line, c.callKind s⟩]

def retrySpan (s : Step) : Nat := 12 + if 0 < s.options.retryInterval then 1 else 0

def callSpan (c : Context) (s : Step) : Nat := if c.retries s then retrySpan s else 1

def resultName (name : String) (s : Step) : String := "__" ++ name ++ "_" ++ toString s.line ++ "__"

def beforeBlock (c : Context) (s : Step) (name : String) (line : Nat) : List Stmt :=
  if c.retries s then c.retryStmts s line (line + 5) (.assign [.name (resultName name s)] (c.callExpr s)) else []

def beforeSpan (c : Context) (s : Step) : Nat := if c.retries s then retrySpan s else 0

def resultExpr (c : Context) (s : Step) (name : String) : Expr :=
  if c.retries s then .name (resultName name s) else c.callExpr s

def gateSpan (c : Context) (gate : Gate) (s : Step) : Nat :=
  match gate with
  | .call => c.beforeSpan s
  | .comparison => 0

def gateStmts (c : Context) (gate : Gate) (s : Step) (line : Nat) : List Stmt :=
  match gate with
  | .call => c.beforeBlock s "exist_result" line
  | .comparison => []

def gateExpr (c : Context) (gate : Gate) (s : Step) : Expr :=
  match gate with
  | .call => c.resultExpr s "exist_result"
  | .comparison => c.comparisonExpr s

def itemsBound (c : Context) (s : Step) : List Target :=
  if s.outputs.isEmpty then [.name ("__item_" ++ toString s.line ++ "__")] else c.boundTo s

end Context

def loopExpr (s : Step) (name : String) (position : Nat) (default : Expr) : Expr :=
  match (s.input? name).or (s.shownInputs[position]?) with
  | some i => inputExpr s.key i
  | none => default

def namedExpr (function name : String) (value : Expr) : Expr := callOf function [textExpr name, value]

namespace Context

def rangeExpr (s : Step) : Expr :=
  callOf "range" [namedExpr "int_param" "start" (loopExpr s "start" 0 (numberExpr 0)),
    namedExpr "int_param" "end" (loopExpr s "end" 1 (numberExpr 0)),
    namedExpr "int_param" "step" (loopExpr s "step" 2 (numberExpr 1))]

def listExpr (s : Step) : Expr := namedExpr "list_param" "lists" (loopExpr s "lists" 0 (.list []))

def mapExpr (s : Step) : Expr := callOf "items" [namedExpr "dict_param" "dicts" (loopExpr s "dicts" 0 (.dict []))]

def loopKind (c : Context) (kind : LoopKind) (s : Step) (body : List Stmt) : StmtKind :=
  match kind with
  | .while => .whileLoop (c.comparisonExpr s) body
  | .call => .forLoop (c.itemsBound s) (c.resultExpr s "for_iterable") body
  | .range => .forLoop [(c.boundTo s).head?.getD (.name "i")] (rangeExpr s) body
  | .list =>
    match c.boundTo s with
    | index :: item :: _ => .forLoop [index, item] (callOf "enumerate" [listExpr s]) body
    | [item] => .forLoop [item] (listExpr s) body
    | [] => .forLoop [.name "item"] (listExpr s) body
  | .map =>
    match c.boundTo s with
    | key :: value :: _ => .forLoop [key, value] (mapExpr s) body
    | _ => .forLoop [.name "key", .name "value"] (mapExpr s) body

def loopStmts (c : Context) (kind : LoopKind) (s : Step) (line : Nat) : List Stmt :=
  match kind with
  | .call => c.beforeBlock s "for_iterable" line
  | _ => []

def loopSpan (c : Context) (kind : LoopKind) (s : Step) : Nat :=
  match kind with
  | .call => c.beforeSpan s
  | _ => 0

end Context

mutual

def span (c : Context) : Statement → Nat
  | .atomic step => c.callSpan step
  | .break _ | .continue _ | .return _ => 1
  | .branch gate step body alternatives otherwise closing =>
    c.gateSpan gate step + 1 + blockSpan c body + alternativesSpan c alternatives + clauseSpan c otherwise +
      closing.toList.length
  | .loop kind step body closing => c.loopSpan kind step + 1 + blockSpan c body + closing.toList.length
  | .attempt _ body handler final closing =>
    1 + blockSpan c body + clauseSpan c handler + clauseSpan c final +
      (if handler.isNone && final.isNone then 2 else 0) + closing.toList.length

def allSpan (c : Context) : List Statement → Nat
  | [] => 0
  | s :: rest => span c s + allSpan c rest

def blockSpan (c : Context) : List Statement → Nat
  | [] => 1
  | s :: rest => span c s + allSpan c rest

def alternativesSpan (c : Context) : List Clause → Nat
  | [] => 0
  | ⟨_, body⟩ :: rest => 1 + blockSpan c body + alternativesSpan c rest

def clauseSpan (c : Context) : Option Clause → Nat
  | none => 0
  | some ⟨_, body⟩ => 1 + blockSpan c body

end

def closerStmts (line : Nat) (closing : Option Step) : List Stmt := closing.toList.map fun _ => ⟨line, .pass⟩

mutual

def translate (c : Context) (line : Nat) : Statement → List Stmt
  | .atomic step => c.callStmts step line
  | .break _ => [⟨line, .break⟩]
  | .continue _ => [⟨line, .continue⟩]
  | .return _ => [⟨line, .return none⟩]
  | .branch gate step body alternatives otherwise closing =>
    let here := line + c.gateSpan gate step
    let first := here + 1 + blockSpan c body
    let last := first + alternativesSpan c alternatives
    c.gateStmts gate step line ++
      [⟨here, .ifChain (⟨here, c.gateExpr gate step, translateBlock c (here + 1) body⟩ ::
        translateAlternatives c first alternatives) (translateSuite c last otherwise)⟩] ++
      closerStmts (last + clauseSpan c otherwise) closing
  | .loop kind step body closing =>
    let here := line + c.loopSpan kind step
    c.loopStmts kind step line ++ [⟨here, c.loopKind kind step (translateBlock c (here + 1) body)⟩] ++
      closerStmts (here + 1 + blockSpan c body) closing
  | .attempt _ body handler final closing =>
    let first := line + 1 + blockSpan c body
    let last := first + clauseSpan c handler
    let alone := handler.isNone && final.isNone
    let done := last + clauseSpan c final + if alone then 2 else 0
    [⟨line, .tryBlock (translateBlock c (line + 1) body) (translateHandler c first handler)
      (if alone then some ⟨last, [⟨last + 1, .pass⟩]⟩ else translateSuite c last final)⟩] ++
      closerStmts done closing

def translateAll (c : Context) (line : Nat) : List Statement → List Stmt
  | [] => []
  | s :: rest => translate c line s ++ translateAll c (line + span c s) rest

def translateBlock (c : Context) (line : Nat) : List Statement → List Stmt
  | [] => [⟨line, .pass⟩]
  | s :: rest => translate c line s ++ translateAll c (line + span c s) rest

def translateAlternatives (c : Context) (line : Nat) : List Clause → List Arm
  | [] => []
  | ⟨step, body⟩ :: rest =>
    ⟨line, c.comparisonExpr step, translateBlock c (line + 1) body⟩ ::
      translateAlternatives c (line + 1 + blockSpan c body) rest

def translateSuite (c : Context) (line : Nat) : Option Clause → Option Suite
  | none => none
  | some ⟨_, body⟩ => some ⟨line, translateBlock c (line + 1) body⟩

def translateHandler (c : Context) (line : Nat) : Option Clause → Option Handler
  | none => none
  | some ⟨_, body⟩ => some ⟨line, some "__error__", translateBlock c (line + 1) body⟩

end

def defaultExpr (v : Variable) : Expr := operandExpr (Fragment.ofValue (declaredValue v))

def loadStmts (line : Nat) : List Variable → List Stmt
  | [] => []
  | v :: rest =>
    ⟨line, .assign [.name v.name] (.call (.attr (.name "args") "get") [textExpr v.name, defaultExpr v] [])⟩ ::
      loadStmts (line + 1) rest

def writeBackStmts (line : Nat) : List Variable → List Stmt
  | [] => []
  | v :: rest =>
    ⟨line, .assign [.index (.name "args") (textExpr v.name)] (.name v.name)⟩ :: writeBackStmts (line + 1) rest

def translateProgram (c : Context) (params : List Variable) (statements : List Statement) : Script.Program :=
  let attempt := 2 + params.length
  let final := attempt + 2 + allSpan c statements
  ⟨[⟨1, .define ⟨"main", ["args"], loadStmts 2 params ++
    [⟨attempt, .tryBlock (⟨attempt + 1, .pass⟩ :: translateAll c (attempt + 2) statements) none
      (some ⟨final, ⟨final + 1, .pass⟩ :: writeBackStmts (final + 2) (outputs params)⟩)⟩], 1⟩⟩]⟩

mutual

def loadable : Json → Bool
  | .float _ => false
  | .int n => -2 ^ 63 < n && n < 2 ^ 63
  | .arr items => loadableItems items
  | .obj ⟨fields⟩ => loadableFields fields
  | _ => true

def loadableItems : List Json → Bool
  | [] => true
  | j :: rest => loadable j && loadableItems rest

def loadableFields : List (String × Json) → Bool
  | [] => true
  | (_, j) :: rest => loadable j && loadableFields rest

end

def loadableFragment (f : Fragment) : Bool :=
  match f.tag with
  | .text | .other | .element => loadable f.data
  | .globalVariable => true
  | .flowVariable | .parameter => Script.isIdentifier (literalText f.data)
  | .expression => false

def loadableInput (i : Input) : Bool :=
  Script.isIdentifier i.name &&
    (if i.parse = some "json_str" then loadable (heldValue i) else i.value.all loadableFragment)

structure LoadableStep (s : Step) : Prop where
  inputs : ∀ i ∈ s.shownInputs, loadableInput i
  outputs : ∀ o ∈ s.outputs, Script.isIdentifier o.target
  before : ¬0 < s.options.delayBefore
  after : ¬0 < s.options.delayAfter
  interval : ¬0 < s.options.retryInterval

instance : DecidablePred LoadableStep := fun s =>
  decidable_of_iff ((∀ i ∈ s.shownInputs, loadableInput i) ∧ (∀ o ∈ s.outputs, Script.isIdentifier o.target) ∧
      ¬0 < s.options.delayBefore ∧ ¬0 < s.options.delayAfter ∧ ¬0 < s.options.retryInterval)
    ⟨fun ⟨inputs, outputs, before, after, interval⟩ => ⟨inputs, outputs, before, after, interval⟩,
      fun ⟨inputs, outputs, before, after, interval⟩ => ⟨inputs, outputs, before, after, interval⟩⟩

def loadableKey (key : String) : Bool := (keyPath key).all Script.isIdentifier

def loadableVariable (v : Variable) : Bool :=
  Script.isIdentifier v.name && (Fragment.ofValue (declaredValue v)).all loadableFragment

end Flowstep.Code
