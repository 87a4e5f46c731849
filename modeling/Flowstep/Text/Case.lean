import Flowstep.Text.CaseTable
import Flowstep.Text.Letter

/-!
Full case mappings of texts: one character may become several, and a capital sigma at the end of a
word becomes the final small sigma.
-/
namespace Flowstep.Text

def CaseRun.holds (r : CaseRun) (n : Nat) : Bool :=
  let step := if r.shift.natAbs = 1 then 2 else 1
  r.first ≤ n && n < r.first + step * r.count && (n - r.first) % step == 0

def otherCase (expansions : List (Nat × List Nat)) (runs : List CaseRun) (c : Char) : List Char :=
  match expansions.lookup c.toNat with
  | some codes => codes.map Char.ofNat
  | none =>
    match runs.find? (·.holds c.toNat) with
    | some r => [Char.ofNat (c.toNat + r.shift).toNat]
    | none => [c]

def toUpper (s : String) : String :=
  String.ofList (s.toList.flatMap (otherCase upperExpansions upperRuns))

def nextIsCased (cs : List Char) : Bool :=
  match cs.dropWhile fun c => inSpans caseIgnorableSpans c.toNat with
  | [] => false
  | c :: _ => inSpans casedSpans c.toNat

def lowerFrom (before : List Char) : List Char → List Char
  | [] => []
  | c :: rest =>
    let here :=
      if c = 'Σ' then
        if nextIsCased before && !nextIsCased rest then ['ς'] else ['σ']
      else otherCase lowerExpansions lowerRuns c
    here ++ lowerFrom (c :: before) rest

def toLower (s : String) : String := String.ofList (lowerFrom [] s.toList)

end Flowstep.Text
