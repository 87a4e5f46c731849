import Flowstep.Project.Bundle

/-!
The breakpoints of a run.
-/
namespace Flowstep.Run

open Code (LineMap)
open Project (Bundle)

inductive LineError where
  | unknownUnit (unit : String)
  | unmappedLine (unit : String) (line : Nat)
deriving DecidableEq, Repr

def LineError.message : LineError → String
  | .unknownUnit unit => "Unknown unit `" ++ unit ++ "`"
  | .unmappedLine unit line =>
    "Line " ++ toString line ++ " of unit `" ++ unit ++ "` has no generated code"

structure Breakpoints where
  maps : Dict LineMap
  lines : Dict (List Nat) := ∅
deriving Inhabited

namespace Breakpoints

def lineMap? (b : Breakpoints) (unit : String) : Option LineMap := b.maps.get? unit

def flowLine? (b : Breakpoints) (unit : String) (line : Nat) : Option Nat :=
  (b.lineMap? unit).bind (·.flowLine? line)

def resolve (b : Breakpoints) (unit : String) (line : Nat) : Except LineError Nat :=
  match b.lineMap? unit with
  | none => .error (.unknownUnit unit)
  | some m =>
    match m.firstProgramLine? line with
    | some g => .ok g
    | none => .error (.unmappedLine unit line)

def linesOf (b : Breakpoints) (unit : String) : List Nat := b.lines.getD unit []

def set (b : Breakpoints) (unit : String) (line : Nat) : Except LineError (Nat × Breakpoints) := do
  let g ← b.resolve unit line
  return (g, { b with lines := b.lines.insert unit (LineMap.insertLine g (b.linesOf unit)) })

def clear (b : Breakpoints) (unit : String) (line : Nat) : Except LineError (Bool × Breakpoints) := do
  let g ← b.resolve unit line
  let lines := b.linesOf unit
  if lines.contains g then
    return (true, { b with lines := b.lines.insert unit (lines.erase g) })
  else return (false, b)

def contains (b : Breakpoints) (unit : String) (line : Nat) : Bool := (b.linesOf unit).contains line

def flowLines (b : Breakpoints) (unit : String) : List Nat :=
  ((b.linesOf unit).filterMap (b.flowLine? unit)).foldl (fun s n => LineMap.insertLine n s) []

def trySet (b : Breakpoints) (unit : String) (line : Nat) : Breakpoints :=
  match b.set unit line with
  | .ok (_, b) => b
  | .error _ => b

def mapsOf (bundle : Bundle) : Dict LineMap :=
  ⟨bundle.units.entries.filterMap fun e => e.2.lineMap.map fun m => (e.1, m)⟩

def ofBundle (bundle : Bundle) : Breakpoints :=
  bundle.units.entries.foldl (fun b e => e.2.breakpoints.foldl (fun b n => b.trySet e.1 n) b)
    { maps := mapsOf bundle }

end Breakpoints

end Flowstep.Run
