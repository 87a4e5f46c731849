import Flowstep.Flow.Document
import Flowstep.Json.Parser
import Flowstep.Package.Requirement

/-!
Project documents.
-/
namespace Flowstep.Project

open Json (Reader slots)
open Flowstep.Flow (StepEntry Variable)
open Package (Requirement)

structure UnitEntry where
  id : String
  name : String := ""
  category : Category := .process
  flow : List StepEntry := []
  source : String := ""
  params : List Variable := []
deriving Inhabited

structure Component where
  id : String
  version : String := ""
  requirements : List Requirement := []
deriving Inhabited

structure Document where
  id : String
  name : String := ""
  units : List UnitEntry := []
  globals : List Variable := []
  requirements : List Requirement := []
  components : List Component := []
deriving Inhabited

def UnitEntry.read : Reader UnitEntry := fun j => do
  let [id, name, category, flow, source, params] ←
    slots ["id", "name", "category", "flow", "source", "params"] j | none
  return {
    id := ← id.required .text
    name := ← name.getD .text ""
    category := ← category.getD (.word Category.ofWord?) .process
    flow := ← flow.getD (.list StepEntry.read) []
    source := ← source.getD .text ""
    params := ← params.getD (.list Variable.read) [] }

def Component.read : Reader Component := fun j => do
  let [id, version, requirements] ← slots ["id", "version", "requirements"] j | none
  return {
    id := ← id.required .text
    version := ← version.getD .text ""
    requirements := ← requirements.getD (.list Requirement.read) [] }

namespace Document

def read : Reader Document := fun j => do
  let [id, name, units, globals, requirements, components] ←
    slots ["id", "name", "processes", "globals", "requirements", "components"] j | none
  return {
    id := ← id.required .text
    name := ← name.getD .text ""
    units := ← units.getD (.list UnitEntry.read) []
    globals := ← globals.getD (.list Variable.read) []
    requirements := ← requirements.getD (.list Requirement.read) []
    components := ← components.getD (.list Component.read) [] }

def parse? (text : String) : Option Document := (Json.Written.parse? text).bind read

end Document

end Flowstep.Project
