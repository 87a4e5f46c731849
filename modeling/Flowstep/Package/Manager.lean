import Flowstep.Duration
import Flowstep.Package.Resolver

/-!
A package manager that is a program: each operation runs it with arguments of its own and looks at
its status and at what it wrote.
-/
namespace Flowstep.Package

structure Ran where
  status : Nat
  out : String
  err : String
  elapsed : Duration
  endless : Bool := false

structure Manager where
  program : String
  baseArgs : List String := []
  timeout : Duration
  -- What comes of running a program, which is outside of all that is described here; none if it cannot be started.
  outside : String → List String → Option Ran

namespace Manager

def versionMark : String := "Version:"

def versionIn? (written : String) : Option String :=
  (Text.lines written).findSome? fun line =>
    (Text.after? versionMark line).map Text.trim

def indexArgs : Option String → List String
  | some index => ["-i", index]
  | none => []

def run (m : Manager) (package : String) (args : List String) : Except Failure (Bool × String) :=
  match m.outside m.program (m.baseArgs ++ args) with
  | none => .error .notStarted
  | some r =>
    if r.endless || m.timeout.nanos ≤ r.elapsed.nanos then
      .error (.timeout package m.timeout.seconds)
    else .ok (r.status == 0, r.out ++ r.err)

def runChecked (m : Manager) (package : String) (args : List String) : Except Failure Unit := do
  let (succeeded, written) ← m.run package args
  if !succeeded then throw (.install package (Text.trim written))

def installedVersion (m : Manager) (package : String) : Except Failure (Option String) := do
  let (succeeded, written) ← m.run package ["show", package]
  return if succeeded then versionIn? written else none

def download (m : Manager) (spec dir : String) (index : Option String) : Except Failure Unit :=
  m.runChecked spec (["download", spec, "-d", dir] ++ indexArgs index)

def installOffline (m : Manager) (spec dir : String) : Except Failure Unit :=
  m.runChecked spec ["install", "--no-index", "--find-links", dir, spec]

def install (m : Manager) (spec : String) (index : Option String) : Except Failure Unit :=
  m.runChecked spec (["install", spec] ++ indexArgs index)

def stateless {α : Type} (r : Except Failure α) : EStateM Failure Unit α :=
  match r with
  | .ok a => pure a
  | .error e => throw e

def installer (m : Manager) : Installer Unit where
  installedVersion := fun package => stateless (m.installedVersion package)
  download := fun spec dir index => stateless (m.download spec dir index)
  installOffline := fun spec dir => stateless (m.installOffline spec dir)
  install := fun spec index => stateless (m.install spec index)

end Manager

end Flowstep.Package
