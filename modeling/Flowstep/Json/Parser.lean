import Flowstep.Decimal.Read
import Flowstep.Json.Written

/-!
Reading JSON text: the grammar of the standard without extensions.
-/
namespace Flowstep.Json

abbrev Scan (α : Type) := List Char → Option (α × List Char)

def isSpace (c : Char) : Bool := c = ' ' || c = '\n' || c = '\t' || c = '\r'

def skipSpace (cs : List Char) : List Char := cs.dropWhile isSpace

def hexValue? (c : Char) : Option Nat :=
  if '0' ≤ c && c ≤ '9' then some (c.toNat - 48)
  else if 'a' ≤ c && c ≤ 'f' then some (c.toNat - 87)
  else if 'A' ≤ c && c ≤ 'F' then some (c.toNat - 55)
  else none

def hexUnit? (a b c d : Char) : Option Nat := do
  let a ← hexValue? a
  let b ← hexValue? b
  let c ← hexValue? c
  let d ← hexValue? d
  some (((a * 16 + b) * 16 + c) * 16 + d)

def isHighUnit (n : Nat) : Bool := 0xD800 ≤ n && n ≤ 0xDBFF

def isLowUnit (n : Nat) : Bool := 0xDC00 ≤ n && n ≤ 0xDFFF

def ofPair (high low : Nat) : Char :=
  Char.ofNat (0x10000 + (high - 0xD800) * 0x400 + (low - 0xDC00))

structure Quotation where
  read : List Char := []
  high : Option Nat := none
  readable : Bool := true

namespace Quotation

def push (q : Quotation) (c : Char) : Quotation :=
  { read := c :: q.read, readable := q.readable && q.high.isNone }

def pushUnit (q : Quotation) (n : Nat) : Quotation :=
  if isHighUnit n then { q with high := some n, readable := q.readable && q.high.isNone }
  else if isLowUnit n then
    match q.high with
    | some high => { q with read := ofPair high n :: q.read, high := none }
    | none => { q with readable := false }
  else q.push (Char.ofNat n)

def text? (q : Quotation) : Option String :=
  if q.readable && q.high.isNone then some (String.ofList q.read.reverse) else none

end Quotation

def escaped? : Char → Option Char
  | '"' => some '"'
  | '\\' => some '\\'
  | '/' => some '/'
  | 'b' => some (Char.ofNat 8)
  | 'f' => some (Char.ofNat 12)
  | 'n' => some '\n'
  | 'r' => some '\r'
  | 't' => some '\t'
  | _ => none

def quotation (q : Quotation) : Scan (Option String)
  | [] => none
  | '"' :: rest => some (q.text?, rest)
  | '\\' :: 'u' :: a :: b :: c :: d :: rest =>
    match hexUnit? a b c d with
    | some n => quotation (q.pushUnit n) rest
    | none => none
  | '\\' :: c :: rest =>
    match escaped? c with
    | some c => quotation (q.push c) rest
    | none => none
  | c :: rest => if c.toNat < 32 || c = '\\' then none else quotation (q.push c) rest

def stringBody : Scan (Option String) := quotation {}

-- The digits of a number as far as they fit a 64-bit word, and the power of ten by which they count.
structure Significand where
  digits : Nat
  exponent : Int
  full : Bool

def Significand.pushWhole (s : Significand) (d : Nat) : Significand :=
  if s.full || UInt64.size ≤ s.digits * 10 + d then ⟨s.digits, s.exponent + 1, true⟩
  else ⟨s.digits * 10 + d, s.exponent, false⟩

def Significand.pushFraction (s : Significand) (d : Nat) : Significand :=
  if s.full || UInt64.size ≤ s.digits * 10 + d then { s with full := true }
  else ⟨s.digits * 10 + d, s.exponent - 1, false⟩

-- Scales `x` by a power of ten in one rounding operation, or in steps of `1e308` when the exponent is
-- below what a double can hold. Nothing if the result is infinite.
def scale? : Nat → Float → Int → Option Float
  | 0, _, _ => some 0
  | fuel + 1, x, exponent =>
    if exponent.natAbs ≤ 308 then
      let power := Decimal.ofDecimal false 1 exponent.natAbs
      if 0 ≤ exponent then
        let y := x * power
        if y.isInf then none else some y
      else some (x / power)
    else if x == 0 then some 0
    else if 0 ≤ exponent then none
    else scale? fuel (x / Decimal.ofDecimal false 1 308) (exponent + 308)

def Significand.toFloat? (s : Significand) (negative : Bool) (written : Int) : Option Float := do
  let x ← scale? 5 (UInt64.ofNat s.digits).toFloat (s.exponent + written)
  some (if negative then -x else x)

def exponentPart : Scan (Option Int)
  | c :: rest =>
    if c = 'e' || c = 'E' then
      let (negative, rest) := Decimal.splitSign rest
      let (digits, rest) := rest.span Decimal.isDigit
      if digits.isEmpty then none
      else
        let n : Int := Decimal.natOfDigitsUpTo UInt64.size digits
        some (some (if negative then -n else n), rest)
    else some (none, c :: rest)
  | [] => some (none, [])

def fractionPart : Scan (Option (List Char))
  | '.' :: rest =>
    let (digits, rest) := rest.span Decimal.isDigit
    if digits.isEmpty then none else some (some digits, rest)
  | rest => some (none, rest)

def digitValue (c : Char) : Nat := c.toNat - 48

def Significand.ofDigits (whole fraction : List Char) : Significand :=
  let s := whole.foldl (fun s c => Significand.pushWhole s (digitValue c)) ⟨0, 0, false⟩
  fraction.foldl (fun s c => Significand.pushFraction s (digitValue c)) { s with full := false }

def Written.ofFloat? : Option Float → Written
  | some x => .float x
  | none => .unreadable

def Written.ofText? : Option String → Written
  | some s => .str s
  | none => .unreadable

def unsignedNumber (negative : Bool) : Scan Written := fun cs => do
  let (whole, rest) := cs.span Decimal.isDigit
  if whole.isEmpty || (whole.length > 1 && whole.head? == some '0') then none
  else
    let (fraction, rest) ← fractionPart rest
    let (exponent, rest) ← exponentPart rest
    let n := Decimal.natOfDigitsUpTo UInt64.size whole
    match fraction, exponent with
    | none, none =>
      if !negative && n < UInt64.size then some (.int n, rest)
      else if negative && 0 < n && Word.least ≤ -n then some (.int (-n), rest)
      else some (.ofFloat? ((Significand.ofDigits whole []).toFloat? negative 0), rest)
    | _, _ =>
      let s := Significand.ofDigits whole (fraction.getD [])
      some (.ofFloat? (s.toFloat? negative (exponent.getD 0)), rest)

def number : Scan Written
  | '-' :: rest => unsignedNumber true rest
  | cs => unsignedNumber false cs

def scalar : Scan Written
  | 'n' :: 'u' :: 'l' :: 'l' :: rest => some (.null, rest)
  | 't' :: 'r' :: 'u' :: 'e' :: rest => some (.bool true, rest)
  | 'f' :: 'a' :: 'l' :: 's' :: 'e' :: rest => some (.bool false, rest)
  | '"' :: rest => (stringBody rest).map fun (s, rest) => (.ofText? s, rest)
  | cs => number cs

def fieldName : Scan (Option String) := fun cs =>
  match cs with
  | '"' :: rest =>
    match stringBody rest with
    | some (name, rest) =>
      match skipSpace rest with
      | ':' :: rest => some (name, rest)
      | _ => none
    | none => none
  | _ => none

inductive Expect where
  | value
  | firstItem
  | name
  | firstName
  | next

inductive Closing where
  | bracket
  | brace

def passOver : Nat → Expect → List Closing → Scan Unit
  | 0, _, _, _ => none
  | _, .next, [], cs => some ((), cs)
  | fuel + 1, expect, ends, cs =>
    match expect, ends, skipSpace cs with
    | .firstItem, _ :: ends, ']' :: rest => passOver fuel .next ends rest
    | .firstName, _ :: ends, '\x7d' :: rest => passOver fuel .next ends rest
    | .next, .bracket :: ends, ']' :: rest => passOver fuel .next ends rest
    | .next, .brace :: ends, '\x7d' :: rest => passOver fuel .next ends rest
    | .next, .bracket :: _, ',' :: rest => passOver fuel .value ends rest
    | .next, .brace :: _, ',' :: rest => passOver fuel .name ends rest
    | .next, _, _ => none
    | .name, _, cs | .firstName, _, cs =>
      match fieldName cs with
      | some (_, rest) => passOver fuel .value ends rest
      | none => none
    | _, _, '[' :: rest => passOver fuel .firstItem (.bracket :: ends) rest
    | _, _, '\x7b' :: rest => passOver fuel .firstName (.brace :: ends) rest
    | _, _, cs =>
      match scalar cs with
      | some (_, rest) => passOver fuel .next ends rest
      | none => none

def tooDeep (fuel : Nat) : Scan Written := fun cs =>
  (passOver fuel .value [] cs).map fun (_, rest) => (.unreadable, rest)

mutual

-- A value after white space. `depth` is one more than the number of arrays and objects that may still
-- be opened, and `fuel` bounds the tokens read.
def value : Nat → Nat → Scan Written
  | 0, _, _ => none
  | fuel + 1, depth, cs =>
    match skipSpace cs with
    | '[' :: rest =>
      if depth ≤ 1 then tooDeep fuel ('[' :: rest)
      else
        match skipSpace rest with
        | ']' :: rest => some (.arr [], rest)
        | rest => elements fuel (depth - 1) [] rest
    | '\x7b' :: rest =>
      if depth ≤ 1 then tooDeep fuel ('\x7b' :: rest)
      else
        match skipSpace rest with
        | '\x7d' :: rest => some (.obj [], rest)
        | rest => members fuel (depth - 1) (some []) rest
    | cs => scalar cs

def elements : Nat → Nat → List Written → Scan Written
  | 0, _, _, _ => none
  | fuel + 1, depth, read, cs =>
    match value fuel depth cs with
    | none => none
    | some (w, rest) =>
      match skipSpace rest with
      | ',' :: rest => elements fuel depth (w :: read) rest
      | ']' :: rest => some (.arr (w :: read).reverse, rest)
      | _ => none

def members : Nat → Nat → Option (List (String × Written)) → Scan Written
  | 0, _, _, _ => none
  | fuel + 1, depth, read, cs =>
    match fieldName (skipSpace cs) with
    | none => none
    | some (name, rest) =>
      match value fuel depth rest with
      | none => none
      | some (w, rest) =>
        let read := name.bind fun k => read.map fun fields => (k, w) :: fields
        match skipSpace rest with
        | ',' :: rest => members fuel depth read rest
        | '\x7d' :: rest =>
          match read with
          | some fields => some (.obj fields.reverse, rest)
          | none => some (.unreadable, rest)
        | _ => none

end

def Written.parse? (s : String) : Option Written :=
  let cs := s.toList
  match value (2 * cs.length + 2) 128 cs with
  | some (w, rest) => if (skipSpace rest).isEmpty then some w else none
  | none => none

def parse? (s : String) : Option Json := (Written.parse? s).bind Written.value?

end Flowstep.Json
