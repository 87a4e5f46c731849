import Flowstep.Decimal.Double
import Flowstep.Word

/-!
Reading numbers from text.
-/
namespace Flowstep.Decimal

def isDigit (c : Char) : Bool := '0' ≤ c && c ≤ '9'

def natOfDigits (cs : List Char) : Nat := cs.foldl (fun n c => 10 * n + (c.toNat - 48)) 0

-- The number written by ASCII digits, as far as they count: once `limit` is reached, the digits after
-- it are passed over.
def natOfDigitsUpTo (limit : Nat) (cs : List Char) : Nat :=
  cs.foldl (fun n c => if limit ≤ n then n else 10 * n + (c.toNat - 48)) 0

def splitSign : List Char → Bool × List Char
  | '-' :: rest => (true, rest)
  | '+' :: rest => (false, rest)
  | cs => (false, cs)

def readNat64? (s : String) : Option Nat :=
  let digits := match s.toList with
    | '+' :: rest => rest
    | cs => cs
  if digits.isEmpty || !digits.all isDigit then none
  else
    let n := natOfDigitsUpTo UInt64.size digits
    if n < UInt64.size then some n else none

def readInt64? (s : String) : Option Int64 :=
  let (negative, digits) := splitSign s.toList
  if digits.isEmpty || !digits.all isDigit then none
  else
    let n : Int := natOfDigitsUpTo UInt64.size digits
    Word.ofInt? (if negative then -n else n)

def readMantissa? (cs : List Char) : Option (List Char × Nat × List Char) :=
  let (whole, rest) := cs.span isDigit
  match rest with
  | '.' :: rest =>
    let (fraction, rest) := rest.span isDigit
    if whole.isEmpty && fraction.isEmpty then none
    else some (whole ++ fraction, fraction.length, rest)
  | _ => if whole.isEmpty then none else some (whole, 0, rest)

def exponentLimit : Nat := 65536

def readExponent? : List Char → Option Int
  | [] => some 0
  | c :: rest =>
    if c = 'e' || c = 'E' then
      let (negative, digits) := splitSign rest
      if digits.isEmpty || !digits.all isDigit then none
      else
        let n : Int := natOfDigitsUpTo exponentLimit digits
        some (if negative then -n else n)
    else none

-- The number of leading digits that decide how a decimal is rounded, apart from whether anything comes
-- after them: a double, or the middle between two doubles, has fewer.
def decidingDigits : Nat := 800

def ofDigits (negative : Bool) (digits : List Char) (exponent : Int) : Float :=
  let digits := digits.dropWhile (· = '0')
  let kept := digits.take decidingDigits
  let rest := digits.drop decidingDigits
  if rest.all (· = '0') then ofDecimal negative (natOfDigits kept) (exponent + rest.length)
  else ofDecimal negative (natOfDigits (kept ++ ['1'])) (exponent + rest.length - 1)

def readFloat? (s : String) : Option Float :=
  let (negative, cs) := splitSign s.toList
  let lower := String.ofList (cs.map Char.toLower)
  if lower = "inf" || lower = "infinity" then
    some (if negative then -(1.0 / 0.0) else 1.0 / 0.0)
  else if lower = "nan" then some (0.0 / 0.0)
  else do
    let (digits, places, rest) ← readMantissa? cs
    let exponent ← readExponent? rest
    some (ofDigits negative digits (exponent - places))

end Flowstep.Decimal
