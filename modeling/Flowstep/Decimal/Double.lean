/-!
Double-precision numbers as exact rationals: taking one apart into a mantissa and a power of two,
and the double nearest to a quotient.
-/
namespace Flowstep.Decimal

structure Parts where
  negative : Bool
  mantissa : Nat
  exponent : Int

def leadingBit : Nat := 4503599627370496

def signBit : Nat := 9223372036854775808

def infiniteBits : Nat := 2047 * leadingBit

def isNegative (x : Float) : Bool := x.toBits.toNat ≥ signBit

def parts (x : Float) : Parts :=
  let bits := x.toBits.toNat
  let biased : Nat := bits / leadingBit % 2048
  let fraction : Nat := bits % leadingBit
  if biased = 0 then ⟨isNegative x, fraction, -1074⟩
  else ⟨isNegative x, fraction + leadingBit, (biased : Int) - 1075⟩

def divEven (num den : Nat) : Nat :=
  let q := num / den
  let r := num % den
  if 2 * r < den then q
  else if den < 2 * r then q + 1
  else q + q % 2

def floorLog2 (num den : Nat) : Int :=
  let k := (num.log2 : Int) - (den.log2 : Int)
  let fits := if 0 ≤ k then den <<< k.toNat ≤ num else den ≤ num <<< (-k).toNat
  if fits then k else k - 1

-- The bits of the double nearest to `num / den`, an exact half going to the even neighbour. A
-- quotient past the greatest double gives the infinite one.
def bitsOfRatio (num den : Nat) : Nat :=
  if num = 0 then 0
  else
    let unit := max (floorLog2 num den - 52) (-1074)
    let mantissa :=
      if 0 ≤ unit then divEven num (den <<< unit.toNat) else divEven (num <<< (-unit).toNat) den
    min ((unit + 1074).toNat * leadingBit + mantissa) infiniteBits

-- The double nearest to `digits * 10 ^ exponent`, negated when `negative`. Exponents so far out that
-- the result is zero or infinite whatever the digits are not multiplied out.
def ofDecimal (negative : Bool) (digits : Nat) (exponent : Int) : Float :=
  let size : Int := (Nat.toDigits 10 digits).length + exponent
  let bits :=
    if digits = 0 then 0
    else if 400 < size then infiniteBits
    else if size < -400 then 0
    else if 0 ≤ exponent then bitsOfRatio (digits * Nat.pow 10 exponent.toNat) 1
    else bitsOfRatio digits (Nat.pow 10 (-exponent).toNat)
  Float.ofBits (UInt64.ofNat (if negative then signBit + bits else bits))

def truncate (x : Float) : Float := if x < 0 then x.ceil else x.floor

def isIntegral (x : Float) : Bool := x.isFinite && truncate x == x

end Flowstep.Decimal
