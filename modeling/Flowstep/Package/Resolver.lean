import Flowstep.Package.Requirement

/-!
Making sure that required packages are installed.
-/
namespace Flowstep.Package

inductive Failure where
  | install (package message : String)
  | versionMismatch (package wanted found : String)
  | timeout (package : String) (seconds : Nat)
  | notStarted
deriving DecidableEq, Repr

def Failure.message : Failure → String
  | .install package message => "failed to install " ++ package ++ ": " ++ message
  | .versionMismatch package wanted found =>
    package ++ " " ++ found ++ " does not satisfy " ++ wanted
  | .timeout package seconds =>
    "installing " ++ package ++ " timed out after " ++ toString seconds ++ "s"
  | .notStarted => "I/O error: the package manager could not be started"

structure Installer (σ : Type) where
  installedVersion : String → EStateM Failure σ (Option String)
  download : String → String → Option String → EStateM Failure σ Unit
  installOffline : String → String → EStateM Failure σ Unit
  install : String → Option String → EStateM Failure σ Unit

inductive Resolution where
  | skipped
  | satisfied (version : String)
  | installed (version : String)
deriving DecidableEq, Repr

inductive Progress where
  | downloading
  | downloaded
deriving DecidableEq, Repr

def Progress.word : Progress → String
  | .downloading => "downloading"
  | .downloaded => "downloaded"

structure Tip where
  progress : Progress
  package : String
  spec : String
deriving DecidableEq, Repr

def Tip.toJson (t : Tip) : Json :=
  .ofFields [("status", .str t.progress.word), ("package", .str t.package), ("spec", .str t.spec)]

structure Resolver (σ : Type) where
  resolved : List String := []
  tips : List Tip := []
  manager : σ

namespace Resolver

variable {σ α : Type}

def ask (m : EStateM Failure σ α) : EStateM Failure (Resolver σ) α := fun r =>
  match m r.manager with
  | .ok a manager => .ok a { r with manager }
  | .error e manager => .error e { r with manager }

def succeeds (m : EStateM Failure σ Unit) : EStateM Failure (Resolver σ) Bool := fun r =>
  match m r.manager with
  | .ok _ manager => .ok true { r with manager }
  | .error _ manager => .ok false { r with manager }

def note (t : Tip) : EStateM Failure (Resolver σ) Unit :=
  modify fun r => { r with tips := t :: r.tips }

def remember (spec : String) : EStateM Failure (Resolver σ) Unit :=
  modify fun r => { r with resolved := spec :: r.resolved }

def fetch (m : Installer σ) (cacheDir spec : String) (index : Option String) :
    EStateM Failure (Resolver σ) Unit := do
  let cached ← succeeds do
    m.download spec cacheDir index
    m.installOffline spec cacheDir
  if !cached then ask (m.install spec index)

-- Makes sure that a requirement is met. A version counts only if the package manager reports it.
def resolve (m : Installer σ) (cacheDir : String) (r : Requirement) :
    EStateM Failure (Resolver σ) Resolution := do
  let name := Text.trim r.package
  let spec := r.installSpec
  if name.isEmpty || (← get).resolved.contains spec then return .skipped
  match (← ask (m.installedVersion name)).filter r.isSatisfiedBy with
  | some version =>
    remember spec
    return .satisfied version
  | none =>
    note ⟨.downloading, name, spec⟩
    fetch m cacheDir spec (r.index.filter (!·.isEmpty))
    note ⟨.downloaded, name, spec⟩
    match ← ask (m.installedVersion name) with
    | none => throw (.install name "package not found after install")
    | some version =>
      if r.isSatisfiedBy version then
        remember spec
        return .installed version
      else throw (.versionMismatch name spec version)

def resolveAll (m : Installer σ) (cacheDir : String) :
    List Requirement → EStateM Failure (Resolver σ) (List Resolution)
  | [] => return []
  | r :: rest => do
    let first ← resolve m cacheDir r
    let others ← resolveAll m cacheDir rest
    return first :: others

end Resolver

end Flowstep.Package
