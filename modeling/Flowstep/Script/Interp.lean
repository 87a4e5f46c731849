import Flowstep.Script.Machine
import Flowstep.Script.Method

/-!
Running a script against a host. The functions take fuel, of which every nested call and every round
of a loop uses one; a run that uses it up ends as exhausted, apart from values and failures.
-/
namespace Flowstep.Script

def maxCallDepth : Nat := 200

inductive Flow where
  | normal
  | break
  | continue
  | return (value : Value)

structure Context (σ : Type) where
  host : Host σ
  unit : String

namespace Interp

variable {σ : Type} (ctx : Context σ)

def checkpoint (line : Nat) : Exec σ Unit := do
  modify fun s => { s with line }
  let frames := (← get).frames
  .ofHost (ctx.host.checkpoint line ⟨ctx.unit, frames.current, frames.depth⟩)

def isBound (name : String) : Exec σ Bool := do
  let s ← get
  return (s.frames.lookup name).isSome || s.functions.contains name

def isGlobals (name : String) : Exec σ Bool := do
  return name = "gv" && (← Exec.lookup name).isNone

-- Whether an expression is a variable that is bound, or an item of one. Items of `gv` always count.
def isPlace : Expr → Exec σ Bool
  | .name n => do return (← Exec.lookup n).isSome
  | .index (.name n) _ => do return n = "gv" || (← Exec.lookup n).isSome
  | .index base _ => isPlace base
  | _ => return false

def updatePlace {α : Type} (root : String) (keys : List Value)
    (f : Value → Except Stop (Value × α)) : Exec σ α := do
  if ← isGlobals root then
    match keys with
    | [] => Exec.fail (.runtime "cannot rebind gv")
    | first :: keys =>
      let globals ← Exec.globals
      match globals.get? first.display with
      | none => Exec.fail (.key first.display)
      | some v =>
        let (v, a) ← Exec.ofExcept (updateAt f keys v)
        Exec.setGlobals (globals.insert first.display v)
        return a
  else
    match ← Exec.lookup root with
    | none => Exec.fail (.name root)
    | some v =>
      let (v, a) ← Exec.ofExcept (updateAt f keys v)
      modify fun s => { s with frames := s.frames.rebind root v }
      return a

def bindArguments (f : Function) (args : Args) : Except Stop (Dict Value) := do
  if f.params.length < args.positional.length then
    failArguments f.name
      ("takes " ++ toString f.params.length ++ " positional arguments but " ++
        toString args.positional.length ++ " were given")
  else
    let frame := Dict.ofList (f.params.zip args.positional)
    let frame ← args.keywords.foldlM (fun frame e =>
      if f.params.contains e.1 then Except.ok (frame.insert e.1 e.2)
      else failArguments f.name ("got an unexpected keyword argument '" ++ e.1 ++ "'")) frame
    match f.params.find? fun p => !frame.contains p with
    | some p => failArguments f.name ("missing required argument '" ++ p ++ "'")
    | none => return frame

def sleepSeconds (args : Args) : Except Stop Float :=
  let given := match args.positional.head? with
    | some v => some v
    | none => args.keywords.head?.map Prod.snd
  match given.bind Value.asFloat? with
  | some seconds => .ok seconds
  | none => failArguments "sleep" "expected a number of seconds"

def resultHalted {α : Type} : Except Error α → Bool
  | .ok _ => false
  | .error e => e.isHalted

mutual

def execBlock : Nat → List Stmt → Exec σ Flow
  | 0, _ => throw .exhausted
  | _, [] => return .normal
  | fuel + 1, stmt :: rest => do
    match ← exec fuel stmt with
    | .normal => execBlock fuel rest
    | other => return other

def exec : Nat → Stmt → Exec σ Flow
  | 0, _ => throw .exhausted
  | fuel + 1, stmt => do
    checkpoint ctx stmt.line
    Exec.mapError (·.locate ctx.unit stmt.line) (execKind fuel stmt.line stmt.kind)

def execKind : Nat → Nat → StmtKind → Exec σ Flow
  | 0, _, _ => throw .exhausted
  | fuel + 1, line, kind => do
    match kind with
    | .pass => return .normal
    | .expr e =>
      let _ ← eval fuel e
      return .normal
    | .assign targets e =>
      let v ← eval fuel e
      assignAll fuel targets v
      return .normal
    | .augAssign target op e =>
      let old ← eval fuel (match target with
        | .name n => .name n
        | .index object index => .index object index)
      let v ← eval fuel e
      let v ← Exec.ofExcept (binary op old v)
      assign fuel target v
      return .normal
    | .ifChain arms otherwise => execArms fuel true arms otherwise
    | .whileLoop test body => execWhile fuel true line test body
    | .forLoop targets source body =>
      let items ← Exec.ofExcept (iterate (← eval fuel source))
      execFor fuel true line targets body items
    | .tryBlock body handler final => execTry fuel body handler final
    | .break => return .break
    | .continue => return .continue
    | .return none => return .return .none
    | .return (some e) => return .return (← eval fuel e)
    | .raise (some e) =>
      let v ← eval fuel e
      Exec.fail (.runtime v.display)
    | .raise none =>
      match (← get).handling with
      | e :: _ => throw (.error e)
      | [] => Exec.fail (.runtime "no active exception to re-raise")
    | .define f =>
      modify fun s => { s with functions := s.functions.insert f.name f }
      return .normal
    | .load name => Exec.fail (.noModule name)

def execArms : Nat → Bool → List Arm → Option Suite → Exec σ Flow
  | 0, _, _, _ => throw .exhausted
  | _, _, [], none => return .normal
  | fuel + 1, _, [], some suite => do
    checkpoint ctx suite.line
    execBlock fuel suite.body
  | fuel + 1, first, arm :: rest, otherwise => do
    if !first then checkpoint ctx arm.line
    if (← eval fuel arm.test).truthy then execBlock fuel arm.body
    else execArms fuel false rest otherwise

def execWhile : Nat → Bool → Nat → Expr → List Stmt → Exec σ Flow
  | 0, _, _, _, _ => throw .exhausted
  | fuel + 1, first, line, test, body => do
    if !first then checkpoint ctx line
    if (← eval fuel test).truthy then
      match ← execBlock fuel body with
      | .break => return .normal
      | .return v => return .return v
      | _ => execWhile fuel false line test body
    else return .normal

def execFor : Nat → Bool → Nat → List Target → List Stmt → List Value → Exec σ Flow
  | 0, _, _, _, _, _ => throw .exhausted
  | _, _, _, _, _, [] => return .normal
  | fuel + 1, first, line, targets, body, item :: rest => do
    if !first then checkpoint ctx line
    assignAll fuel targets item
    match ← execBlock fuel body with
    | .break => return .normal
    | .return v => return .return v
    | _ => execFor fuel false line targets body rest

-- Runs guarded statements, the handler if they fail, and the final clause in any case but a
-- force-stop. A final clause that does not end normally decides how the statement ends.
def execTry : Nat → List Stmt → Option Handler → Option Suite → Exec σ Flow
  | 0, _, _, _ => throw .exhausted
  | fuel + 1, body, handler, final => do
    let result ← Exec.observe (execBlock fuel body)
    let result ← match result, handler with
      | .error e, some h =>
        if e.isCatchable then
          checkpoint ctx h.line
          if let some name := h.name then Exec.bind name (.str e.kind.message)
          modify fun s => { s with handling := e :: s.handling }
          let result ← Exec.observe (execBlock fuel h.body)
          modify fun s => { s with handling := s.handling.tail }
          pure result
        else pure (.error e)
      | result, _ => pure result
    match final with
    | none => Exec.ofResult result
    | some suite =>
      if resultHalted result then Exec.ofResult result
      else
        checkpoint ctx suite.line
        match ← execBlock fuel suite.body with
        | .normal => Exec.ofResult result
        | other => return other

def assignAll : Nat → List Target → Value → Exec σ Unit
  | 0, _, _ => throw .exhausted
  | fuel + 1, targets, v => do
    match targets, v with
    | [single], v => assign fuel single v
    | many, .list items =>
      if items.length = many.length then assignEach fuel many items
      else
        Exec.fail (.value ("expected " ++ toString many.length ++ " values to unpack, got " ++
          toString items.length))
    | _, other => Exec.fail (.type (.notIterable other.typeName))

def assignEach : Nat → List Target → List Value → Exec σ Unit
  | 0, _, _ => throw .exhausted
  | fuel + 1, target :: targets, v :: values => do
    assign fuel target v
    assignEach fuel targets values
  | _, _, _ => return ()

def assign : Nat → Target → Value → Exec σ Unit
  | 0, _, _ => throw .exhausted
  | _, .name n, v => Exec.bind n v
  | fuel + 1, .index object index, v => do
    let key ← eval fuel index
    let onGlobals ← match object with
      | .name n => isGlobals n
      | _ => pure false
    if onGlobals then Exec.setGlobals ((← Exec.globals).insert key.display v)
    else
      match ← placePath fuel object with
      | none => Exec.fail (.runtime "cannot assign into a temporary value")
      | some (root, keys) =>
        updatePlace root keys fun container => do
          return (← setItem container key v, ())

def placePath : Nat → Expr → Exec σ (Option (String × List Value))
  | 0, _ => throw .exhausted
  | _, .name n => return some (n, [])
  | fuel + 1, .index base index => do
    match ← placePath fuel base with
    | none => return none
    | some (root, keys) => return some (root, keys ++ [← eval fuel index])
  | _, _ => return none

def eval : Nat → Expr → Exec σ Value
  | 0, _ => throw .exhausted
  | fuel + 1, e => do
    match e with
    | .lit v => return v
    | .name n =>
      match ← Exec.lookup n with
      | some v => return v
      | none => if n = "gv" then return .map (← Exec.globals) else Exec.fail (.name n)
    | .attr base attr =>
      let v ← eval fuel base
      Exec.fail (.attribute v.typeName attr)
    | .index base index =>
      let onGlobals ← match base with
        | .name n => isGlobals n
        | _ => pure false
      if onGlobals then
        let key := (← eval fuel index).display
        match (← Exec.globals).get? key with
        | some v => return v
        | none => Exec.fail (.key key)
      else
        let container ← eval fuel base
        let key ← eval fuel index
        Exec.ofExcept (getItem container key)
    | .call callee args kwargs => call fuel callee args kwargs
    | .list items => return .list (← evalItems fuel items)
    | .dict entries => return .map (← evalEntries fuel entries ∅)
    | .not inner => return .bool (!(← eval fuel inner).truthy)
    | .neg inner =>
      let v ← eval fuel inner
      Exec.ofExcept (negateValue v)
    | .bin op left right =>
      let l ← eval fuel left
      let r ← eval fuel right
      Exec.ofExcept (binary op l r)
    | .cmp op left right =>
      let l ← eval fuel left
      let r ← eval fuel right
      return .bool (← Exec.ofExcept (compareValues op l r))
    | .and left right =>
      let l ← eval fuel left
      if l.truthy then eval fuel right else return l
    | .or left right =>
      let l ← eval fuel left
      if l.truthy then return l else eval fuel right

def evalItems : Nat → List Expr → Exec σ (List Value)
  | 0, _ => throw .exhausted
  | _, [] => return []
  | fuel + 1, e :: rest => do
    let v ← eval fuel e
    return v :: (← evalItems fuel rest)

def evalKeywords : Nat → List (String × Expr) → Exec σ (List (String × Value))
  | 0, _ => throw .exhausted
  | _, [] => return []
  | fuel + 1, (name, e) :: rest => do
    let v ← eval fuel e
    return (name, v) :: (← evalKeywords fuel rest)

def evalEntries : Nat → List (Expr × Expr) → Dict Value → Exec σ (Dict Value)
  | 0, _, _ => throw .exhausted
  | _, [], entries => return entries
  | fuel + 1, (k, e) :: rest, entries => do
    let key ← eval fuel k
    let v ← eval fuel e
    evalEntries fuel rest (entries.insert key.display v)

def evalArgs : Nat → List Expr → List (String × Expr) → Exec σ Args
  | 0, _, _ => throw .exhausted
  | fuel + 1, args, kwargs => do
    let positional ← evalItems fuel args
    let keywords ← evalKeywords fuel kwargs
    return ⟨positional, keywords⟩

-- Calls a function, a method, or an operation of the host: a dotted name whose first part is not
-- bound.
def call : Nat → Expr → List Expr → List (String × Expr) → Exec σ Value
  | 0, _, _, _ => throw .exhausted
  | fuel + 1, callee, args, kwargs => do
    match callee with
    | .name n => callName fuel n args kwargs
    | .attr base method =>
      let path := callee.dottedPath?.getD []
      let outside ← match path.head? with
        | some root => do pure (!(← isBound root) && root ≠ "gv")
        | none => pure false
      if outside then
        if path.head? = some "report" && path.length = 2 then
          match Report.Level.ofMethod? method with
          | none => Exec.fail (.attribute "report" method)
          | some level =>
            let given ← evalArgs fuel args kwargs
            .ofHost (ctx.host.report level (given.positional.head?.getD .none))
            return .none
        else
          let given ← evalArgs fuel args kwargs
          let line := (← get).line
          Exec.mapError Error.unwind
            (.ofHost (ctx.host.callAtomic ⟨Text.joinWith "." path, given, ctx.unit, line⟩))
      else
        let given ← evalArgs fuel args kwargs
        if ← isPlace base then
          match ← placePath fuel base with
          | none => Exec.fail (.runtime "cannot assign into a temporary value")
          | some (root, keys) =>
            updatePlace root keys fun receiver => Method.call receiver method given
        else
          let receiver ← eval fuel base
          let (_, v) ← Exec.ofExcept (Method.call receiver method given)
          return v
    | other =>
      let v ← eval fuel other
      Exec.fail (.type (.notCallable v.typeName))

def callName : Nat → String → List Expr → List (String × Expr) → Exec σ Value
  | 0, _, _, _ => throw .exhausted
  | fuel + 1, name, args, kwargs => do
    match ← Exec.lookup name with
    | some v => Exec.fail (.type (.notCallable v.typeName))
    | none =>
      match (← get).functions.get? name with
      | some f =>
        let given ← evalArgs fuel args kwargs
        let (v, _) ← invoke fuel f given
        return v
      | none =>
        if name = "sleep" then
          let given ← evalArgs fuel args kwargs
          let seconds ← Exec.ofExcept (sleepSeconds given)
          .ofHost (ctx.host.sleep seconds)
          return .none
        else if name = "print" then
          let given ← evalArgs fuel args kwargs
          .ofHost (ctx.host.print (Text.joinWith " " (given.positional.map Value.display)))
          return .none
        else if Builtin.isBuiltin name then
          let given ← evalArgs fuel args kwargs
          Exec.ofExcept (Builtin.call name given)
        else Exec.fail (.name name)

def invoke : Nat → Function → Args → Exec σ (Value × Dict Value)
  | 0, _, _ => throw .exhausted
  | fuel + 1, f, args => do
    if maxCallDepth ≤ (← get).frames.depth then
      Exec.fail (.runtime "maximum recursion depth exceeded")
    else
      let frame ← Exec.ofExcept (bindArguments f args)
      modify fun s => { s with frames := s.frames.push frame }
      let result ← Exec.observe (execBlock fuel f.body)
      let frame := (← get).frames.current
      modify fun s => { s with frames := s.frames.pop }
      match result with
      | .ok (.return v) => return (v, frame)
      | .ok _ => return (.none, frame)
      | .error e => throw (.error e.unwind)

end

attribute [grind =] execBlock exec execKind execArms execWhile execFor execTry assignAll assignEach assign placePath eval
  evalItems evalKeywords evalEntries evalArgs call callName invoke

-- Runs the top level of a program and then its function `main`, if it has one, with a map of
-- arguments. Gives the map as `main` leaves it; it carries the outputs.
def runProgram (fuel : Nat) (program : Program) (args : Dict Value) : Exec σ (Dict Value) := do
  match ← execBlock ctx fuel program.body with
  | .return _ => return args
  | _ =>
    match (← get).functions.get? "main" with
    | none => return args
    | some f =>
      let (_, frame) ← invoke ctx fuel f ⟨[.map args], []⟩
      match frame.get? "args" with
      | some (.map entries) => return entries
      | _ => return ∅

end Interp

def Program.run {σ : Type} (host : Host σ) (unit : String) (fuel : Nat) (program : Program)
    (args : Dict Value) : EStateM Stop (World σ) (Dict Value) := fun world =>
  match Interp.runProgram ⟨host, unit⟩ fuel program args (.start world) with
  | .ok outputs s => .ok outputs s.world
  | .error e s => .error e s.world

end Flowstep.Script
