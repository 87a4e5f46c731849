import Flowstep.Package.Resolver

/-!
A package manager that keeps its packages on a shelf in memory.
-/
namespace Flowstep.Package

inductive Operation where
  | version
  | download
  | offline
  | install
deriving DecidableEq, Repr

def Operation.word : Operation → String
  | .version => "version"
  | .download => "download"
  | .offline => "offline"
  | .install => "install"

structure Asked where
  operation : Operation
  spec : String
  index : Option String
deriving DecidableEq, Repr

structure Shelf where
  installed : Dict String := ∅
  failing : Dict String := ∅
  forcedVersion : Option String := none
  lost : Bool := false
  log : List Asked := []
deriving Inhabited

namespace Shelf

def perform (operation : Operation) (spec : String) (index : Option String) :
    EStateM Failure Shelf Unit := do
  modify fun s => { s with log := ⟨operation, spec, index⟩ :: s.log }
  match (← get).failing.get? operation.word with
  | some message => throw (.install spec message)
  | none => return ()

def cutBy? (sep s : String) : Option (String × String) :=
  (Text.indexOfSeq sep.toList s.toList).map fun i =>
    (String.ofList (s.toList.take i), String.ofList (s.toList.drop (i + sep.length)))

def packageOf (spec : String) : String × String :=
  match (cutBy? "==" spec).or (cutBy? ">=" spec) with
  | some (name, range) => (name, String.ofList (range.toList.takeWhile (· != ',')))
  | none => (spec, "1.0.0")

def put (spec : String) : EStateM Failure Shelf Unit :=
  modify fun s =>
    let (name, version) := packageOf spec
    if s.lost then s
    else { s with installed := s.installed.insert name (s.forcedVersion.getD version) }

def manager : Installer Shelf where
  installedVersion name := do
    perform .version name none
    return (← get).installed.get? name
  download spec _ index := perform .download spec index
  installOffline spec _ := do
    perform .offline spec none
    put spec
  install spec index := do
    perform .install spec index
    put spec

end Shelf

end Flowstep.Package
