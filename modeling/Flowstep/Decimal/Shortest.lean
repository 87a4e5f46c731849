import Flowstep.Decimal.Double

/-!
The shortest decimal that reads back as a given double.
-/
namespace Flowstep.Decimal

inductive Tie where
  | even
  | up
deriving DecidableEq, Repr

structure Digits where
  digits : List Char
  exponent : Int

def digitCount (n : Nat) : Nat := (Nat.toDigits 10 n).length

def floorLog10 (m : Nat) (q : Int) : Int :=
  if 0 ≤ q then (digitCount (m <<< q.toNat) : Int) - 1
  else
    let den := 1 <<< (-q).toNat
    if den ≤ m then (digitCount (m / den) : Int) - 1
    else
      let least := (den + m - 1) / m
      if least ≤ 1 then 0 else -(digitCount (least - 1) : Int)

structure Rounding where
  low : Nat
  high : Nat
  closed : Bool

-- The reals that round to `m * 2 ^ q`. Below a power of two the next double is half as far away. The
-- ends belong to it when the mantissa is even.
def roundingOf (m : Nat) (q : Int) : Rounding where
  low := if m = leadingBit && q ≠ -1074 then 4 * m - 1 else 4 * m - 2
  high := 4 * m + 2
  closed := m % 2 = 0

def Rounding.holds (r : Rounding) (num den c : Nat) : Bool :=
  if r.closed then r.low * den ≤ c * num && c * num ≤ r.high * den
  else r.low * den < c * num && c * num < r.high * den

def onGrid (tie : Tie) (m : Nat) (q place : Int) : Option Nat :=
  let num := (4 * Nat.pow 10 place.toNat) <<< (-q).toNat
  let den := Nat.pow 10 (-place).toNat <<< q.toNat
  let r := roundingOf m q
  let below := 4 * m * den / num
  let above := below + 1
  match r.holds num den below, r.holds num den above with
  | true, true =>
    let twice := 8 * m * den
    let sum := (below + above) * num
    if twice < sum then some below
    else if sum < twice then some above
    else if tie = .up then some above
    else some (if below % 2 = 0 then below else above)
  | true, false => some below
  | false, true => some above
  | false, false => none

def firstGrid (tie : Tie) (m : Nat) (q e : Int) : Nat → Nat → Option (Nat × Int)
  | 0, _ => none
  | fuel + 1, count =>
    let place := e - count + 1
    match onGrid tie m q place with
    | some n => some (n, place)
    | none => firstGrid tie m q e fuel (count + 1)

def dropZeros (cs : List Char) : List Char :=
  match cs.reverse.dropWhile (· == '0') with
  | [] => cs.take 1
  | rest => rest.reverse

-- The shortest decimal of a finite double, its sign aside. Zero is the digit zero; every other double
-- has a hit on the grid of seventeen digits at the latest.
def shortest (tie : Tie) (x : Float) : Digits :=
  let p := parts x
  if p.mantissa = 0 then ⟨['0'], 0⟩
  else
    match firstGrid tie p.mantissa p.exponent (floorLog10 p.mantissa p.exponent) 17 1 with
    | some (n, place) =>
      let cs := Nat.toDigits 10 n
      ⟨dropZeros cs, place + cs.length - 1⟩
    | none => ⟨['0'], 0⟩

end Flowstep.Decimal
