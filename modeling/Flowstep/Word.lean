/-!
Signed words of 64 bits and the integers they stand for.
-/
namespace Flowstep.Word

def least : Int := -9223372036854775808

def greatest : Int := 9223372036854775807

def ofInt? (n : Int) : Option Int64 :=
  if least ≤ n ∧ n ≤ greatest then some (Int64.ofInt n) else none

def saturate (n : Int) : Int := if n < least then least else if greatest < n then greatest else n

-- The double nearest to a word. The conversion has a sign of its own, so that the magnitude of every word fits.
def toFloat (w : Int64) : Float := if w < 0 then -(-w).toUInt64.toFloat else w.toUInt64.toFloat

end Flowstep.Word
