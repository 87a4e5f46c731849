import Flowstep.Decimal.Read
import Flowstep.Json.Record
import Flowstep.Text.Blank
import Flowstep.Text.Search

/-!
Package requirements and the versions that meet them.
-/
namespace Flowstep.Package

def components (version : String) : List Nat :=
  go (Text.splitBy "." (Text.trim version))
where
  -- A component counts by its leading digits, and the first one without any ends the list.
  go : List String → List Nat
    | [] => []
    | part :: rest =>
      match Decimal.readNat64? (String.ofList (part.toList.takeWhile Decimal.isDigit)) with
      | some n => n :: go rest
      | none => []

def compareComponents : List Nat → List Nat → Ordering
  | [], [] => .eq
  | [], n :: rest => (compare 0 n).then (compareComponents [] rest)
  | n :: rest, [] => (compare n 0).then (compareComponents rest [])
  | m :: as, n :: bs => (compare m n).then (compareComponents as bs)

structure Requirement where
  package : String
  version : Option String := none
  strict : Bool := false
  index : Option String := none
deriving DecidableEq, Repr, Inhabited

namespace Requirement

def requested? (r : Requirement) : Option String :=
  (r.version.map Text.trim).filter (!·.isEmpty)

-- The version below which the range ends is meant for a first component less than `2 ^ 64 - 1`: components are machine words,
-- and the greatest has no successor.
def installSpec (r : Requirement) : String :=
  let name := Text.trim r.package
  match r.requested? with
  | none => name
  | some version =>
    if r.strict then name ++ "==" ++ version
    else match components version with
      | major :: _ => name ++ ">=" ++ version ++ ",<" ++ toString (major + 1)
      | [] => name ++ "==" ++ version

def isSatisfiedBy (r : Requirement) (installed : String) : Bool :=
  match r.requested? with
  | none => true
  | some version =>
    if r.strict then Text.trim installed == version
    else
      let present := components installed
      let want := components version
      match present, want with
      | h :: _, w :: _ => h == w && (compareComponents present want).isGE
      | _, _ => false

def read : Json.Reader Requirement := fun j => do
  let [package, version, strict, index] ←
    Json.slots ["packageName", "packageVersion", "versionStrict", "mirrorUrl"] j | none
  return {
    package := ← package.required .text
    version := ← version.optional .text
    strict := ← strict.getD .flag false
    index := ← index.optional .text }

def textOrNull : Option String → Json
  | some s => .str s
  | none => .null

def toJson (r : Requirement) : Json :=
  .obj ⟨[("packageName", .str r.package), ("packageVersion", textOrNull r.version),
    ("versionStrict", .bool r.strict), ("mirrorUrl", textOrNull r.index)]⟩

end Requirement

end Flowstep.Package
