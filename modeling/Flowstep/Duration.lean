import Flowstep.Decimal.Double
import Flowstep.Text.Search

/-!
Spans of time in whole nanoseconds.
-/
namespace Flowstep

structure Duration where
  nanos : Nat
deriving DecidableEq, Repr, Inhabited

namespace Duration

def ofSeconds (n : Nat) : Duration := ⟨n * 1000000000⟩

def ofMillis (n : Nat) : Duration := ⟨n * 1000000⟩

def seconds (d : Duration) : Nat := d.nanos / 1000000000

def ofFloat (x : Float) : Duration :=
  let p := Decimal.parts x
  let billion := 1000000000
  if 0 ≤ p.exponent then ⟨p.mantissa <<< p.exponent.toNat * billion⟩
  else ⟨Decimal.divEven (p.mantissa * billion) (1 <<< (-p.exponent).toNat)⟩

def toFloat (d : Duration) : Float :=
  Float.ofNat d.seconds + Float.ofNat (d.nanos % 1000000000) / 1000000000

def fractionDigits : Nat → Nat → List Char
  | 0, _ => []
  | places + 1, n =>
    if n = 0 then [] else Nat.digitChar (n / Nat.pow 10 places) :: fractionDigits places (n % Nat.pow 10 places)

def decimal (whole fraction places : Nat) : String :=
  match fractionDigits places fraction with
  | [] => toString whole
  | digits => toString whole ++ "." ++ String.ofList digits

def text (d : Duration) : String :=
  let n := d.nanos
  if 1000000000 ≤ n then decimal (n / 1000000000) (n % 1000000000) 9 ++ "s"
  else if 1000000 ≤ n then decimal (n / 1000000) (n % 1000000) 6 ++ "ms"
  else if 1000 ≤ n then decimal (n / 1000) (n % 1000) 3 ++ "µs"
  else toString n ++ "ns"

end Duration

end Flowstep
