import Flowstep.Flow.Step

/-!
The steps of a flow classified by what they do to its structure.
-/
namespace Flowstep.Flow

inductive Keyword where
  | «if»
  | elseIf
  | «else»
  | ifEnd
  | «while»
  | whileEnd
  | forStep
  | forList
  | forDict
  | forEnd
  | «try»
  | «catch»
  | «finally»
  | tryEnd
  | «break»
  | «continue»
  | «return»
deriving DecidableEq, Repr, Inhabited

namespace Keyword

def word : Keyword → String
  | .if => "if"
  | .elseIf => "elseIf"
  | .else => "else"
  | .ifEnd => "ifEnd"
  | .while => "while"
  | .whileEnd => "whileEnd"
  | .forStep => "forStep"
  | .forList => "forList"
  | .forDict => "forDict"
  | .forEnd => "forEnd"
  | .try => "try"
  | .catch => "catch"
  | .finally => "finally"
  | .tryEnd => "tryEnd"
  | .break => "break"
  | .continue => "continue"
  | .return => "return"

def ofWord? : String → Option Keyword
  | "if" => some .if
  | "elseIf" => some .elseIf
  | "else" => some .else
  | "ifEnd" => some .ifEnd
  | "while" => some .while
  | "whileEnd" => some .whileEnd
  | "forStep" => some .forStep
  | "forList" => some .forList
  | "forDict" => some .forDict
  | "forEnd" => some .forEnd
  | "try" => some .try
  | "catch" => some .catch
  | "finally" => some .finally
  | "tryEnd" => some .tryEnd
  | "break" => some .break
  | "continue" => some .continue
  | "return" => some .return
  | _ => none

end Keyword

structure Tables where
  conditions : List String
  iterators : List String
deriving Inhabited

def Tables.standard : Tables where
  conditions :=
    ["Browser.element_exists", "Browser.text_exists", "Element.exists", "Window.exists",
      "Image.exists", "File.exists", "Folder.exists", "Process.exists"]
  iterators :=
    ["Browser.element_loop", "Browser.similar_loop", "Element.similar_loop", "Excel.row_loop",
      "DataTable.row_loop", "Folder.file_loop"]

inductive TokenKind where
  | keyword (word : Keyword)
  | atomic
  | condition
  | iterator
deriving DecidableEq, Repr, Inhabited

-- The class of a key. A keyword counts before the tables, and a condition before an iterator.
def TokenKind.ofKey (tables : Tables) (key : String) : TokenKind :=
  match Keyword.ofWord? key with
  | some word => .keyword word
  | none =>
    if tables.conditions.contains key then .condition
    else if tables.iterators.contains key then .iterator
    else .atomic

structure Token where
  kind : TokenKind
  step : Step
deriving Inhabited

structure MissingKey where
  line : Nat
  id : String
deriving DecidableEq, Repr

def isGroupMark (key : String) : Bool := key == "group" || key == "groupEnd"

def tokens (tables : Tables) : List Step → Except MissingKey (List Token)
  | [] => .ok []
  | s :: rest =>
    if s.key.isEmpty then .error ⟨s.line, s.id⟩
    else if isGroupMark s.key then tokens tables rest
    else do return ⟨.ofKey tables s.key, s⟩ :: (← tokens tables rest)

end Flowstep.Flow
