/-!
White space and the texts left when it is cut off at the ends.
-/
namespace Flowstep.Text

def isBlank (c : Char) : Bool :=
  let n := c.toNat
  (9 ≤ n && n ≤ 13) || n == 0x20 || n == 0x85 || n == 0xA0 || n == 0x1680 ||
    (0x2000 ≤ n && n ≤ 0x200A) || n == 0x2028 || n == 0x2029 || n == 0x202F || n == 0x205F ||
    n == 0x3000

def trimStart (s : String) : String := String.ofList (s.toList.dropWhile isBlank)

def trimEnd (s : String) : String :=
  String.ofList ((s.toList.reverse.dropWhile isBlank).reverse)

def trim (s : String) : String := trimEnd (trimStart s)

def words (s : String) : List String :=
  ((s.toList.splitOnP isBlank).filter (!·.isEmpty)).map String.ofList

end Flowstep.Text
