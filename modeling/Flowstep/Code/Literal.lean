import Flowstep.Json.Printer

/-!
JSON values written as script literals.
-/
namespace Flowstep.Code

def quotedChar : Char → List Char
  | '"' => ['\\', '"']
  | '\\' => ['\\', '\\']
  | '\n' => ['\\', 'n']
  | '\r' => ['\\', 'r']
  | '\t' => ['\\', 't']
  | c => [c]

def quote (s : String) : String :=
  String.ofList ('"' :: s.toList.flatMap quotedChar ++ ['"'])

def truthWord (b : Bool) : String := if b then "True" else "False"

mutual

def literal : Json → String
  | .null => "None"
  | .bool b => truthWord b
  | .int n => toString n
  | .float x => Json.floatText x
  | .str s => quote s
  | .arr items => "[" ++ Text.joinWith ", " (literalItems items) ++ "]"
  | .obj ⟨fields⟩ => "\x7b" ++ Text.joinWith ", " (literalFields fields) ++ "\x7d"

def literalItems : List Json → List String
  | [] => []
  | j :: rest => literal j :: literalItems rest

def literalFields : List (String × Json) → List String
  | [] => []
  | (k, j) :: rest => (quote k ++ ": " ++ literal j) :: literalFields rest

end

-- The text a literal contributes when it is joined to others: a string stands for itself and null
-- for nothing.
def literalText : Json → String
  | .str s => s
  | .null => ""
  | j => literal j

def globalRef (name : String) : String := "gv[" ++ quote name ++ "]"

end Flowstep.Code
