import Flowstep.Code.Call
import Flowstep.Code.LineMap

/-!
The program of a flow.
-/
namespace Flowstep.Code

open Flowstep.Flow (Step Statement Clause Gate LoopKind ParamError Variable)

def closerLine (indent : Nat) (closing : Option Step) : List Line :=
  closing.toList.map fun s => ⟨indent, "pass", some s.line⟩

def Context.branchLines (c : Context) (gate : Gate) (s : Step) (indent : Nat) :
    Except ParamError (List Line) :=
  match gate with
  | .call => c.headerLines s indent "exist_result" fun result => "if " ++ result ++ ":"
  | .comparison => do return [⟨indent, "if " ++ (← c.comparison s) ++ ":", some s.line⟩]

def Context.loopLines (c : Context) (kind : LoopKind) (s : Step) (indent : Nat) :
    Except ParamError (List Line) :=
  match kind with
  | .while => do return [⟨indent, "while " ++ (← c.comparison s) ++ ":", some s.line⟩]
  | .call =>
    c.headerLines s indent "for_iterable" fun result =>
      "for " ++ c.itemTargets s ++ " in " ++ result ++ ":"
  | .range => do return [⟨indent, ← c.rangeHeader s, some s.line⟩]
  | .list => do return [⟨indent, ← c.listHeader s, some s.line⟩]
  | .map => do return [⟨indent, ← c.mapHeader s, some s.line⟩]

-- A `try` without clauses needs one to be a statement.
def missingClause (indent : Nat) (handler final : Option Clause) : List Line :=
  match handler, final with
  | none, none => [⟨indent, "finally:", none⟩, ⟨indent + 1, "pass", none⟩]
  | _, _ => []

mutual

def emit (c : Context) (indent : Nat) : Statement → Except ParamError (List Line)
  | .atomic step => c.callLines step indent
  | .break step => .ok [⟨indent, "break", some step.line⟩]
  | .continue step => .ok [⟨indent, "continue", some step.line⟩]
  | .return step => .ok [⟨indent, "return", some step.line⟩]
  | .branch gate step body alternatives otherwise closing => do
    let header ← c.branchLines gate step indent
    let body ← emitBlock c (indent + 1) body
    let alternatives ← emitAlternatives c indent alternatives
    let otherwise ← emitClause c indent "else:" otherwise
    return header ++ body ++ alternatives ++ otherwise ++ closerLine indent closing
  | .loop kind step body closing => do
    let header ← c.loopLines kind step indent
    let body ← emitBlock c (indent + 1) body
    return header ++ body ++ closerLine indent closing
  | .attempt step body handler final closing => do
    let body ← emitBlock c (indent + 1) body
    let caught ← emitClause c indent "except Exception as __error__:" handler
    let last ← emitClause c indent "finally:" final
    return ⟨indent, "try:", some step.line⟩ :: body ++ caught ++ last ++
      missingClause indent handler final ++ closerLine indent closing

def emitAll (c : Context) (indent : Nat) : List Statement → Except ParamError (List Line)
  | [] => .ok []
  | s :: rest => do
    let first ← emit c indent s
    let others ← emitAll c indent rest
    return first ++ others

def emitBlock (c : Context) (indent : Nat) : List Statement → Except ParamError (List Line)
  | [] => .ok [⟨indent, "pass", none⟩]
  | s :: rest => do
    let first ← emit c indent s
    let others ← emitAll c indent rest
    return first ++ others

def emitAlternatives (c : Context) (indent : Nat) : List Clause → Except ParamError (List Line)
  | [] => .ok []
  | ⟨step, body⟩ :: rest => do
    let test ← c.comparison step
    let body ← emitBlock c (indent + 1) body
    let others ← emitAlternatives c indent rest
    return ⟨indent, "elif " ++ test ++ ":", some step.line⟩ :: body ++ others

def emitClause (c : Context) (indent : Nat) (header : String) :
    Option Clause → Except ParamError (List Line)
  | none => .ok []
  | some ⟨step, body⟩ => do
    let body ← emitBlock c (indent + 1) body
    return ⟨indent, header, some step.line⟩ :: body

end

def loadText (v : Variable) : String :=
  v.name ++ " = args.get(" ++ quote v.name ++ ", " ++ (Operand.ofDefault v).code ++ ")"

def writeBackText (v : Variable) : String := "args[" ++ quote v.name ++ "] = " ++ v.name

def outputs (params : List Variable) : List Variable := params.filter (·.direction == .output)

def program (c : Context) (params : List Variable) (statements : List Statement) :
    Except ParamError (List Line) := do
  let flow ← emitAll c 2 statements
  return ⟨0, "def main(args):", none⟩ :: params.map (fun v => ⟨1, loadText v, none⟩) ++
    [⟨1, "try:", none⟩, ⟨2, "pass", none⟩] ++ flow ++
    [⟨1, "finally:", none⟩, ⟨2, "pass", none⟩] ++
    (outputs params).map fun v => ⟨2, writeBackText v, none⟩

end Flowstep.Code
