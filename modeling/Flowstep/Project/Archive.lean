import Flowstep.Project.Bundle

/-!
Compiled projects as files: a manifest, one script a unit, and one line map a process.
-/
namespace Flowstep.Project

open Json (Reader slots objectSlots)
open Flowstep.Flow (Variable)
open Package (Requirement)

abbrev Files := Dict String

-- The name of the file that a path leads to. A step that stays in the directory does not count, and
-- there are no directories inside it.
def fileName? (path : String) : Option String :=
  if Text.startsWith path "/" then none
  else match (Text.splitBy "/" path).reverse with
    | [] => none
    | name :: steps =>
      if ["", ".", ".."].contains name || steps.any (fun p => p ≠ "" && p ≠ ".") then none
      else some name

def Files.write (files : Files) (path text : String) : Files :=
  match fileName? path with
  | some name => files.insert name text
  | none => files

def Files.remove (files : Files) (path : String) : Files :=
  match fileName? path with
  | some name => files.erase name
  | none => files

def manifestName : String := "package.json"
def scriptName (stem : String) : String := stem ++ ".flow"
def mapName (stem : String) : String := stem ++ ".map"

def StepInfo.toJson (s : StepInfo) : Json :=
  .obj ⟨[("line", .int s.line), ("step_id", .str s.id), ("label", .str s.label), ("key", .str s.key)]⟩

def UnitCode.toJson (u : UnitCode) : Json :=
  .obj ⟨[("id", .str u.id), ("name", .str u.name), ("category", .str u.category.word),
    ("file_id", .str u.stem), ("params", .arr (u.params.map Variable.toJson)),
    ("breakpoints", .arr (u.breakpoints.map fun (n : Nat) => .int n)),
    ("step_meta", .arr (u.steps.map StepInfo.toJson)), ("digest", .str u.digest)]⟩

def Bundle.manifest (b : Bundle) : Json :=
  .obj ⟨[("project_id", .str b.projectId), ("name", .str b.name), ("entry", .str b.entry),
    ("units", .obj (b.units.map UnitCode.toJson)), ("globals", .obj (b.globals.map .str)),
    ("requirements", .arr (b.requirements.map Requirement.toJson)),
    ("atomic_info", .obj (b.titles.map fun names => .obj (names.map .str)))]⟩

def UnitCode.addFiles (files : Files) (u : UnitCode) : Files :=
  let files := files.insert (scriptName u.stem) u.source
  match u.lineMap with
  | some m => files.insert (mapName u.stem) m.render
  | none => files

def Bundle.files (b : Bundle) : Files :=
  (b.units.values.foldl UnitCode.addFiles ∅).insert manifestName (b.manifest.renderWide 0)

inductive LoadError where
  | missingFile (name : String)
  | badManifest
  | digestMismatch (name : String)
  | badLineMap (name : String) (error : Code.LineMap.BadEntry)
deriving DecidableEq, Repr

def LoadError.message : LoadError → String
  | .missingFile name => "io error: no file `" ++ name ++ "`"
  | .badManifest => "json error: unreadable manifest"
  | .digestMismatch name => "generated file `" ++ name ++ "` does not match its recorded digest"
  | .badLineMap name error => "invalid flow: " ++ name ++ ": " ++ error.message

def StepInfo.read : Reader StepInfo := fun j => do
  let [line, id, label, key] ← slots ["line", "step_id", "label", "key"] j | none
  return {
    line := ← line.required .natural
    id := ← id.required .text
    label := ← label.required .text
    key := ← key.required .text }

def lineSet (lines : List Nat) : List Nat := lines.foldl (fun s n => Code.LineMap.insertLine n s) []

def UnitCode.read : Reader UnitCode := fun j => do
  let _ ← Reader.tree j
  let [id, name, category, stem, params, breakpoints, steps, digest] ←
    objectSlots ["id", "name", "category", "file_id", "params", "breakpoints", "step_meta",
      "digest"] j | none
  return {
    id := ← id.required .text
    name := ← name.required .text
    category := ← category.required (.looseWord Category.ofWord?)
    stem := ← stem.required .text
    params := ← params.required (.list Variable.read)
    breakpoints := lineSet (← breakpoints.required (.list .natural))
    steps := ← steps.required (.list StepInfo.read)
    source := ""
    lineMap := none
    digest := ← digest.required .text }

def Bundle.read : Reader Bundle := fun j => do
  let [projectId, name, entry, units, globals, requirements, titles] ←
    slots ["project_id", "name", "entry", "units", "globals", "requirements", "atomic_info"] j
    | none
  return {
    projectId := ← projectId.required .text
    name := ← name.required .text
    entry := ← entry.required .text
    units := ← units.required (.dict UnitCode.read)
    globals := ← globals.required (.dict .text)
    requirements := ← requirements.required (.list Requirement.read)
    titles := ← titles.required (.dict (.dict .text)) }

def fileOf (files : Files) (path : String) : Except LoadError String :=
  match (fileName? path).bind files.get? with
  | some text => .ok text
  | none => .error (.missingFile path)

def UnitCode.load (files : Files) (u : UnitCode) : Except LoadError UnitCode := do
  let source ← fileOf files (scriptName u.stem)
  if Digest.ofText source != u.digest then throw (.digestMismatch (scriptName u.stem))
  match u.category with
  | .module => return { u with source }
  | .process =>
    let text ← fileOf files (mapName u.stem)
    let lineMap ← (Code.LineMap.parse text).mapError (.badLineMap (mapName u.stem))
    return { u with source, lineMap := some lineMap }

def Bundle.load (files : Files) : Except LoadError Bundle := do
  let text ← fileOf files manifestName
  match (Json.Written.parse? text).bind Bundle.read with
  | none => throw .badManifest
  | some b =>
    let units ← b.units.entries.mapM fun e => do return (e.1, ← e.2.load files)
    return { b with units := ⟨units⟩ }

end Flowstep.Project
