import Flowstep.Decimal.Read
import Flowstep.Text.Blank

/-!
Points in time, read from and written as date and time with an offset from UTC.
-/
namespace Flowstep.Report

structure Timestamp where
  minute : Int
  second : Nat
  nanos : Nat
deriving DecidableEq, Repr, Inhabited

namespace Timestamp

def daysOf (year : Int) (month day : Nat) : Int :=
  let y := if month ≤ 2 then year - 1 else year
  let m := if month ≤ 2 then month + 9 else month - 3
  365 * y + y / 4 - y / 100 + y / 400 + ((153 * m + 2) / 5 + day - 1 : Nat)

def isLeapYear (year : Int) : Bool := year % 4 == 0 && (year % 100 != 0 || year % 400 == 0)

def daysInMonth (year : Int) (month : Nat) : Nat :=
  if month = 2 then (if isLeapYear year then 29 else 28)
  else if month = 4 || month = 6 || month = 9 || month = 11 then 30
  else 31

def dateOf (days : Int) : Int × Nat × Nat :=
  let era := days / 146097
  let dayOfEra := (days % 146097).toNat
  let yearOfEra := (dayOfEra - dayOfEra / 1460 + dayOfEra / 36524 - dayOfEra / 146096) / 365
  let dayOfYear := dayOfEra - (365 * yearOfEra + yearOfEra / 4 - yearOfEra / 100)
  let m := (5 * dayOfYear + 2) / 153
  let day := dayOfYear - (153 * m + 2) / 5 + 1
  let month := if m < 10 then m + 3 else m - 9
  let year := (yearOfEra : Int) + era * 400
  (if month ≤ 2 then year + 1 else year, month, day)

def skipBlanks (cs : List Char) : List Char := cs.dropWhile Text.isBlank

def digits? (width : Nat) (cs : List Char) : Option (Nat × List Char) :=
  let digits := (cs.take width).takeWhile Decimal.isDigit
  if digits.isEmpty then none else some (Decimal.natOfDigitsUpTo UInt64.size digits, cs.drop digits.length)

def number? (width : Nat) (cs : List Char) : Option (Nat × List Char) :=
  digits? width (skipBlanks cs)

def year? (cs : List Char) : Option (Int × List Char) :=
  match skipBlanks cs with
  | '-' :: rest => (digits? rest.length rest).map fun (n, rest) => (-(n : Int), rest)
  | '+' :: rest => (digits? rest.length rest).map fun (n, rest) => ((n : Int), rest)
  | cs => (digits? 4 cs).map fun (n, rest) => ((n : Int), rest)

def mark? (allowed : List Char) : List Char → Option (List Char)
  | c :: rest => if allowed.contains c then some rest else none
  | [] => none

def fraction? : List Char → Option (Nat × List Char)
  | '.' :: rest =>
    let (ds, rest) := rest.span Decimal.isDigit
    if ds.isEmpty then none
    else some (Decimal.natOfDigits ((ds ++ List.replicate 9 '0').take 9), rest)
  | cs => some (0, cs)

def twoDigits? : List Char → Option (Nat × List Char)
  | a :: b :: rest =>
    if Decimal.isDigit a && Decimal.isDigit b then some (Decimal.natOfDigits [a, b], rest) else none
  | _ => none

def sign? : List Char → Option (Bool × List Char)
  | '+' :: rest => some (false, rest)
  | '-' :: rest => some (true, rest)
  | '−' :: rest => some (true, rest)
  | _ => none

def offset? (cs : List Char) : Option Int :=
  let atEnd (rest : List Char) (minutes : Int) : Option Int :=
    if (skipBlanks rest).isEmpty then some minutes else none
  if (cs.take 3).map Char.toUpper = ['U', 'T', 'C'] then atEnd (cs.drop 3) 0
  else match mark? ['Z', 'z'] cs with
    | some rest => atEnd rest 0
    | none => do
      let (negative, rest) ← sign? cs
      let (hours, rest) ← twoDigits? rest
      let (minutes, rest) ← twoDigits? (rest.dropWhile fun c => c = ':' || Text.isBlank c)
      let total : Int := hours * 60 + minutes
      if minutes < 60 ∧ total < 1440 then atEnd rest (if negative then -total else total) else none

def date (t : Timestamp) : Int × Nat × Nat := dateOf (t.minute / 1440)

def isYear (year : Int) : Bool := -262143 ≤ year && year ≤ 262142

-- Reads a point in time such as `2024-01-02T03:04:05.5+01:00`. White space may stand before every
-- part, and its year is counted both where it is written and in UTC.
def read? (s : String) : Option Timestamp := do
  let (year, cs) ← year? s.toList
  let cs ← mark? ['-'] (skipBlanks cs)
  let (month, cs) ← number? 2 cs
  let cs ← mark? ['-'] (skipBlanks cs)
  let (day, cs) ← number? 2 cs
  let cs ← mark? ['T', 't', ' '] cs
  let (hour, cs) ← number? 2 cs
  let cs ← mark? [':'] (skipBlanks cs)
  let (minute, cs) ← number? 2 cs
  let cs ← mark? [':'] (skipBlanks cs)
  let (second, cs) ← number? 2 cs
  let (nanos, cs) ← fraction? cs
  let offset ← offset? (skipBlanks cs)
  let t : Timestamp :=
    { minute := daysOf year month day * 1440 + (hour * 60 + minute : Nat) - offset, second, nanos }
  if isYear year ∧ 1 ≤ month ∧ month ≤ 12 ∧ 1 ≤ day ∧ day ≤ daysInMonth year month ∧ hour < 24 ∧
      minute < 60 ∧ second ≤ 60 ∧ isYear t.date.1 then
    some t
  else none

def padded (width n : Nat) : String :=
  let ds := Nat.toDigits 10 n
  String.ofList (List.replicate (width - ds.length) '0' ++ ds)

def yearText (year : Int) : String :=
  if 0 ≤ year ∧ year ≤ 9999 then padded 4 year.toNat
  else (if year < 0 then "-" else "+") ++ padded 4 year.natAbs

def fractionText (nanos : Nat) : String :=
  if nanos = 0 then ""
  else if nanos % 1000000 = 0 then "." ++ padded 3 (nanos / 1000000)
  else if nanos % 1000 = 0 then "." ++ padded 6 (nanos / 1000)
  else "." ++ padded 9 nanos

def render (t : Timestamp) : String :=
  let (year, month, day) := t.date
  let minute := (t.minute % 1440).toNat
  yearText year ++ "-" ++ padded 2 month ++ "-" ++ padded 2 day ++ "T" ++ padded 2 (minute / 60) ++
    ":" ++ padded 2 (minute % 60) ++ ":" ++ padded 2 t.second ++ fractionText t.nanos ++ "Z"

end Timestamp

end Flowstep.Report
