import Flowstep.Text.LetterTable

/-!
The character classes of names.
-/
namespace Flowstep.Text

def inSpans : List Nat → Nat → Bool
  | gap :: span :: rest, n => if n < gap then false else n - gap < span || inSpans rest (n - gap - span)
  | _, _ => false

-- Letters of every writing system (the Unicode property Alphabetic).
def isAlphabetic (c : Char) : Bool := inSpans alphabeticSpans c.toNat

def isNumeric (c : Char) : Bool := inSpans numericSpans c.toNat

def isAlphanumeric (c : Char) : Bool := isAlphabetic c || isNumeric c

end Flowstep.Text
