/-!
Looking for a text inside a text: first occurrence, splitting, replacing, lines.
-/
namespace Flowstep.Text

def indexOfSeq (needle : List Char) : List Char → Option Nat
  | [] => if needle.isEmpty then some 0 else none
  | c :: rest =>
    if needle.isPrefixOf (c :: rest) then some 0 else (indexOfSeq needle rest).map (· + 1)

-- Cuts at every occurrence of a nonempty `sep`, from the left and without overlap. `skip`
-- characters of an occurrence are still to be passed over, and `piece` is the current piece in
-- reverse.
def splitFrom (sep : List Char) : Nat → List Char → List Char → List (List Char)
  | _, piece, [] => [piece.reverse]
  | 0, piece, c :: rest =>
    if sep.isPrefixOf (c :: rest) then piece.reverse :: splitFrom sep (sep.length - 1) [] rest
    else splitFrom sep 0 (c :: piece) rest
  | skip + 1, piece, _ :: rest => splitFrom sep skip piece rest

def splitBy (sep s : String) : List String :=
  if sep.isEmpty then [""] ++ s.toList.map String.singleton ++ [""]
  else (splitFrom sep.toList 0 [] s.toList).map String.ofList

def joinWith (sep : String) : List String → String
  | [] => ""
  | p :: ps => ps.foldl (fun text q => text ++ sep ++ q) p

def replaceAll (s pat new : String) : String := joinWith new (splitBy pat s)

def hasInfix (s needle : String) : Bool := (indexOfSeq needle.toList s.toList).isSome

def startsWith (s head : String) : Bool := head.toList.isPrefixOf s.toList

def endsWith (s tail : String) : Bool := tail.toList.reverse.isPrefixOf s.toList.reverse

def after? (head s : String) : Option String :=
  if startsWith s head then some (String.ofList (s.toList.drop head.length)) else none

def cutAt? (c : Char) (s : String) : Option (String × String) :=
  match s.toList.span (· != c) with
  | (_, []) => none
  | (before, _ :: after) => some (String.ofList before, String.ofList after)

def dropReturn (cs : List Char) : List Char :=
  if cs.getLast? = some '\r' then cs.dropLast else cs

-- The lines among the pieces between line feeds: each piece before a line feed loses one carriage
-- return at its end, and an empty piece after the last line feed is no line.
def linesOf : List (List Char) → List (List Char)
  | [] => []
  | [last] => if last.isEmpty then [] else [last]
  | piece :: rest => dropReturn piece :: linesOf rest

def lines (s : String) : List String :=
  (linesOf (s.toList.splitOn '\n')).map String.ofList

def pieces (s : String) : List String := (s.toList.splitOn '\n').map String.ofList

end Flowstep.Text
