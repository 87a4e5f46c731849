import Flowstep.Decimal.Shortest

/-!
Writing a double in one of several layouts: where the point goes, when an exponent is written, and
what stands for the values that are no numbers.
-/
namespace Flowstep.Decimal

structure Layout where
  tie : Tie
  positional : Int → Bool
  keepsPoint : Int → Bool

def withPoint : List Char → List Char
  | [] => ['0']
  | [d] => [d]
  | d :: rest => d :: '.' :: rest

def positionalText (keepPoint : Bool) (d : Digits) : List Char :=
  let n := d.digits.length
  if d.exponent < 0 then
    '0' :: '.' :: (List.replicate ((-d.exponent).toNat - 1) '0' ++ d.digits)
  else
    let whole := d.exponent.toNat + 1
    if n ≤ whole then
      d.digits ++ List.replicate (whole - n) '0' ++ (if keepPoint then ['.', '0'] else [])
    else d.digits.take whole ++ '.' :: d.digits.drop whole

def scientificText (d : Digits) : List Char :=
  let sign := if d.exponent < 0 then '-' else '+'
  withPoint d.digits ++ 'e' :: sign :: Nat.toDigits 10 d.exponent.natAbs

def Layout.write (l : Layout) (x : Float) : String :=
  if x.isNaN then "NaN"
  else
    let sign := if isNegative x then ['-'] else []
    let body :=
      if x.isInf then ['i', 'n', 'f']
      else
        let d := shortest l.tie x
        if l.positional d.exponent then positionalText (l.keepsPoint d.exponent) d
        else scientificText d
    String.ofList (sign ++ body)

def plain : Layout where
  tie := .up
  positional _ := true
  keepsPoint _ := false

end Flowstep.Decimal
