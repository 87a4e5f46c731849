import Flowstep.Code.Line
import Flowstep.Decimal.Read
import Flowstep.Text.Blank

/-!
Which line of a generated program comes from which line of the flow, looked up in both directions.
-/
namespace Flowstep.Code

structure LineMap where
  forward : List (Nat × Nat) := []
  backward : List (Nat × List Nat) := []
deriving DecidableEq, Repr, Inhabited

namespace LineMap

def insertForward (g f : Nat) : List (Nat × Nat) → List (Nat × Nat)
  | [] => [(g, f)]
  | (g', f') :: rest =>
    if g < g' then (g, f) :: (g', f') :: rest
    else if g = g' then (g, f) :: rest
    else (g', f') :: insertForward g f rest

def insertLine (g : Nat) : List Nat → List Nat
  | [] => [g]
  | g' :: rest =>
    if g < g' then g :: g' :: rest
    else if g = g' then g :: rest
    else g' :: insertLine g rest

def insertBackward (g f : Nat) : List (Nat × List Nat) → List (Nat × List Nat)
  | [] => [(f, [g])]
  | (f', gs) :: rest =>
    if f < f' then (f, [g]) :: (f', gs) :: rest
    else if f = f' then (f, insertLine g gs) :: rest
    else (f', gs) :: insertBackward g f rest

def insert (m : LineMap) (g f : Nat) : LineMap :=
  ⟨insertForward g f m.forward, insertBackward g f m.backward⟩

def addLines (m : LineMap) (g : Nat) : List (Option Nat) → LineMap
  | [] => m
  | none :: rest => addLines m (g + 1) rest
  | some f :: rest => addLines (m.insert g f) (g + 1) rest

def ofOrigins (origins : List (Option Nat)) : LineMap := addLines {} 1 origins

def ofLines (lines : List Line) : LineMap := ofOrigins (lines.map (·.origin))

def flowLine? (m : LineMap) (g : Nat) : Option Nat := m.forward.lookup g

def isMapped (m : LineMap) (g : Nat) : Bool := (m.flowLine? g).isSome

def programLines (m : LineMap) (f : Nat) : List Nat := (m.backward.lookup f).getD []

def firstProgramLine? (m : LineMap) (f : Nat) : Option Nat := (m.programLines f).head?

def firstFlowLine? (m : LineMap) : Option Nat := m.backward.head?.map Prod.fst

def size (m : LineMap) : Nat := m.forward.length

def pairText (e : Nat × Nat) : String := toString e.1 ++ ":" ++ toString e.2

def render (m : LineMap) : String := Text.joinWith "," (m.forward.map pairText)

def readPair? (s : String) : Option (Nat × Nat) := do
  let (g, f) ← Text.cutAt? ':' s
  let g ← Decimal.readNat64? (Text.trim g)
  let f ← Decimal.readNat64? (Text.trim f)
  if 0 < g ∧ 0 < f then some (g, f) else none

structure BadEntry where
  entry : String
deriving DecidableEq, Repr

def BadEntry.message (e : BadEntry) : String := "invalid line map entry `" ++ e.entry ++ "`"

def addEntries (m : LineMap) : List String → Except BadEntry LineMap
  | [] => .ok m
  | e :: rest =>
    match readPair? e with
    | some (g, f) => addEntries (m.insert g f) rest
    | none => .error ⟨e⟩

def parse (s : String) : Except BadEntry LineMap :=
  addEntries {} (((Text.splitBy "," s).map Text.trim).filter (!·.isEmpty))

end LineMap

end Flowstep.Code
