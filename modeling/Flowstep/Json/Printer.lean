import Flowstep.Json.Basic
import Flowstep.Text.Search

/-!
The text of a JSON value, compact or with one item a line.
-/
namespace Flowstep.Json

-- Doubles always show that they are doubles: `10.0`, `1e+16`. Numbers from `1e-5` up to below `1e16`
-- are written without an exponent.
def floatLayout : Decimal.Layout where
  tie := .even
  positional e := -5 ≤ e && e ≤ 15
  keepsPoint _ := true

def floatText (x : Float) : String := floatLayout.write x

def hexDigit (n : Nat) : Char := if n < 10 then Char.ofNat (48 + n) else Char.ofNat (87 + n)

def escapeChar (c : Char) : List Char :=
  if c = '"' then ['\\', '"']
  else if c = '\\' then ['\\', '\\']
  else if c = '\n' then ['\\', 'n']
  else if c = '\r' then ['\\', 'r']
  else if c = '\t' then ['\\', 't']
  else if c.toNat = 8 then ['\\', 'b']
  else if c.toNat = 12 then ['\\', 'f']
  else if c.toNat < 32 then
    ['\\', 'u', '0', '0', hexDigit (c.toNat / 16), hexDigit (c.toNat % 16)]
  else [c]

def quoted (s : String) : String :=
  String.ofList ('"' :: (s.toList.flatMap escapeChar ++ ['"']))

mutual

def render : Json → String
  | .null => "null"
  | .bool true => "true"
  | .bool false => "false"
  | .int n => toString n
  | .float x => floatText x
  | .str s => quoted s
  | .arr items => "[" ++ Text.joinWith "," (itemTexts items) ++ "]"
  | .obj ⟨fields⟩ => "\x7b" ++ Text.joinWith "," (fieldTexts fields) ++ "\x7d"

def itemTexts : List Json → List String
  | [] => []
  | j :: rest => render j :: itemTexts rest

def fieldTexts : List (String × Json) → List String
  | [] => []
  | (k, j) :: rest => (quoted k ++ ":" ++ render j) :: fieldTexts rest

end

def newline (depth : Nat) : String := "\n" ++ "".pushn ' ' (2 * depth)

mutual

def renderWide (depth : Nat) : Json → String
  | .arr [] => "[]"
  | .arr items =>
    "[" ++ newline (depth + 1) ++
      Text.joinWith ("," ++ newline (depth + 1)) (wideItems (depth + 1) items) ++ newline depth ++ "]"
  | .obj ⟨[]⟩ => "\x7b\x7d"
  | .obj ⟨fields⟩ =>
    "\x7b" ++ newline (depth + 1) ++
      Text.joinWith ("," ++ newline (depth + 1)) (wideFields (depth + 1) fields) ++
      newline depth ++ "\x7d"
  | j => render j

def wideItems (depth : Nat) : List Json → List String
  | [] => []
  | j :: rest => renderWide depth j :: wideItems depth rest

def wideFields (depth : Nat) : List (String × Json) → List String
  | [] => []
  | (k, j) :: rest => (quoted k ++ ": " ++ renderWide depth j) :: wideFields depth rest

end

end Flowstep.Json
