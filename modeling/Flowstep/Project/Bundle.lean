import Flowstep.Code.Inject
import Flowstep.Digest
import Flowstep.Flow.Nesting
import Flowstep.Project.Document

/-!
Projects compiled to scripts.
-/
namespace Flowstep.Project

open Flowstep.Flow (Variable Step Window Tables Statement Token)
open Package (Requirement)

structure StepInfo where
  line : Nat
  id : String
  label : String
  key : String
deriving DecidableEq, Repr, Inhabited

structure UnitCode where
  id : String
  name : String
  category : Category
  stem : String
  params : List Variable
  breakpoints : List Nat
  steps : List StepInfo
  source : String
  lineMap : Option Code.LineMap
  digest : String
deriving Inhabited, BEq

structure Bundle where
  projectId : String
  name : String
  entry : String
  units : Dict UnitCode
  globals : Dict String
  requirements : List Requirement
  titles : Dict (Dict String)
deriving Inhabited

def Bundle.beq (a b : Bundle) : Bool :=
  a.projectId == b.projectId && a.name == b.name && a.entry == b.entry &&
    a.units.entries == b.units.entries && a.globals.entries == b.globals.entries &&
    a.requirements == b.requirements &&
    (a.titles.map Dict.entries).entries == (b.titles.map Dict.entries).entries

instance : BEq Bundle := ⟨Bundle.beq⟩

structure Settings where
  entry : Option String := none
  mainName : String := "main"
  window : Window := {}
  debug : Bool := false
  indentWidth : Nat := 4
deriving Inhabited

def Settings.toJson (s : Settings) : Json :=
  .ofFields [("entry_process", Requirement.textOrNull s.entry), ("main_process_name", .str s.mainName),
    ("slice", s.window.toJson), ("debug_mode", .bool s.debug), ("indent_width", .int s.indentWidth)]

inductive UnitError where
  | issues (found : List Flow.Issue)
  | missingKey (step : Flow.MissingKey)
  | param (error : Flow.ParamError)
deriving DecidableEq, Repr

def UnitError.message : UnitError → String
  | .issues found => "syntax error: " ++ Text.joinWith "; " (found.map Flow.Issue.message)
  | .missingKey step => "step `" ++ step.id ++ "` at line " ++ toString step.line ++ " has no key"
  | .param error => error.message

inductive BuildError where
  | noUnits (project : String)
  | noEntry (wanted : String)
  | duplicateUnit (id : String)
  | unit (id : String) (error : UnitError)
deriving DecidableEq, Repr

def BuildError.message : BuildError → String
  | .noUnits project => "invalid flow: project `" ++ project ++ "` has no processes"
  | .noEntry wanted => "no entry process `" ++ wanted ++ "` in project"
  | .duplicateUnit id => "invalid flow: duplicate process id `" ++ id ++ "`"
  | .unit id error => "process `" ++ id ++ "`: " ++ error.message

def flowTokens (tables : Tables) (window : Window) (entries : List Flow.StepEntry) :
    Except UnitError (List Token) := do
  let steps ← (Flow.steps window entries).mapError .param
  (Flow.tokens tables steps).mapError .missingKey

def flowStatements (tables : Tables) (window : Window) (entries : List Flow.StepEntry) :
    Except UnitError (List Statement) := do
  (Flow.nest (← flowTokens tables window entries)).mapError .issues

-- The unit that is run: the one with the wanted id, or else the process with the wanted name, or
-- else the only process.
def entryOf (settings : Settings) (units : List UnitEntry) : Except BuildError String :=
  match settings.entry with
  | some id =>
    if units.any (·.id == id) then .ok id else .error (.noEntry id)
  | none =>
    let processes := units.filter (·.category == .process)
    match processes.find? (·.name == settings.mainName), processes with
    | some u, _ => .ok u.id
    | none, [u] => .ok u.id
    | none, _ => .error (.noEntry settings.mainName)

def breakpointLines (steps : List Step) : List Nat :=
  (steps.filter (·.breakpoint)).map (·.line)

def UnitCode.build (settings : Settings) (tables : Tables) (globals : List String) (isEntry : Bool)
    (stem : String) (u : UnitEntry) : Except UnitError (UnitCode × List Step) := do
  let code (breakpoints : List Nat) (steps : List StepInfo) (source : String)
      (lineMap : Option Code.LineMap) : UnitCode :=
    { id := u.id, name := u.name, category := u.category, stem, params := u.params, breakpoints,
      steps, source, lineMap, digest := Digest.ofText source }
  match u.category with
  | .module => return (code [] [] (Code.inject settings.indentWidth u.params u.source) none, [])
  | .process =>
    let window := if isEntry then settings.window else {}
    let steps ← (Flow.steps window u.flow).mapError UnitError.param
    let statements ← flowStatements tables window u.flow
    let lines ← (Code.program ⟨u.id, globals, settings.debug⟩ u.params statements).mapError
      UnitError.param
    return (code (breakpointLines steps) (steps.map fun s => ⟨s.line, s.id, s.label, s.key⟩)
      (Code.render settings.indentWidth lines) (some (.ofLines lines)), Flow.blockCalls statements)

def stemOf (entry : String) (u : UnitEntry) (number : Nat) : String :=
  if u.id == entry then "main" else u.category.word ++ toString number

def addTitles (titles : Dict (Dict String)) (s : Step) : Dict (Dict String) :=
  let named := s.shownInputs.filter fun i => !Text.startsWith i.name "__"
  titles.insert s.key (named.foldl (fun d i => d.insert i.name i.title) (titles.getD s.key ∅))

def distinctPackages (requirements : List Requirement) : List Requirement :=
  go [] requirements
where
  go (seen : List String) : List Requirement → List Requirement
    | [] => []
    | r :: rest => if seen.contains r.package then go seen rest else r :: go (r.package :: seen) rest

def buildUnits (settings : Settings) (tables : Tables) (globals : List String) (entry : String) :
    Nat → Nat → Dict UnitCode → Dict (Dict String) → List UnitEntry →
      Except BuildError (Dict UnitCode × Dict (Dict String))
  | _, _, units, titles, [] => .ok (units, titles)
  | processes, modules, units, titles, u :: rest => do
    let processes := if u.category == .process then processes + 1 else processes
    let modules := if u.category == .module then modules + 1 else modules
    let stem := stemOf entry u (if u.category == .process then processes else modules)
    let (code, calls) ← (UnitCode.build settings tables globals (u.id == entry) stem u).mapError
      (.unit u.id)
    if units.contains u.id then throw (.duplicateUnit u.id)
    buildUnits settings tables globals entry processes modules (units.insert u.id code)
      (calls.foldl addTitles titles) rest

def Document.build (settings : Settings) (tables : Tables) (d : Document) :
    Except BuildError Bundle := do
  if d.units.isEmpty then throw (.noUnits d.id)
  let globals := d.globals.map (·.name)
  let entry ← entryOf settings d.units
  let (units, titles) ← buildUnits settings tables globals entry 0 0 ∅ ∅ d.units
  return {
    projectId := d.id, name := d.name, entry, units
    globals := .ofList (d.globals.map fun v => (v.name, (Code.Operand.ofDefault v).code))
    requirements := distinctPackages (d.requirements ++ d.components.flatMap (·.requirements))
    titles }

end Flowstep.Project
