import Flowstep.Decimal.Layout

/-!
The tokens of script text.
-/
namespace Flowstep.Script

inductive Token where
  | name (text : String)
  | int (n : Int64)
  | float (x : Float)
  | str (text : String)
  | op (symbol : String)
  | newline
  | indent
  | dedent
  | eof

def Token.describe : Token → String
  | .name text => "'" ++ text ++ "'"
  | .int n => toString n.toInt
  | .float x => Decimal.plain.write x
  | .str _ => "string"
  | .op symbol => "'" ++ symbol ++ "'"
  | .newline => "end of line"
  | .indent => "indent"
  | .dedent => "dedent"
  | .eof => "end of input"

def Token.isNewline : Token → Bool
  | .newline => true
  | _ => false

structure Located where
  token : Token
  line : Nat

-- The operators, each before its own beginnings.
def operators : List String :=
  ["==", "!=", "<=", ">=", "+=", "-=", "*=", "/=", "%=", "+", "-", "*", "/", "%", "<", ">", "=",
   "(", ")", "[", "]", "\x7b", "\x7d", ",", ":", "."]

def isOpening (op : String) : Bool := op = "(" || op = "[" || op = "\x7b"

def isClosing (op : String) : Bool := op = ")" || op = "]" || op = "\x7d"

def reservedWords : List String :=
  ["and", "as", "break", "continue", "def", "elif", "else", "except", "finally", "for", "from", "if",
   "import", "in", "is", "not", "or", "pass", "raise", "return", "try", "while"]

def isReserved (word : String) : Bool := reservedWords.contains word

end Flowstep.Script
