import Flowstep.Decimal.Read
import Flowstep.Script.Error
import Flowstep.Script.Token
import Flowstep.Text.Letter

/-!
Script text as a list of tokens.
-/
namespace Flowstep.Script

def malformed {α : Type} (line : Nat) (message : String) : Except Error α :=
  .error (Error.ofKind (.malformed line message))

def startsName (c : Char) : Bool := c = '_' || Text.isAlphabetic c

def continuesName (c : Char) : Bool := c = '_' || Text.isAlphanumeric c

-- The text of a quoted string after its opening quote, which stands on line `start`. Gives the
-- characters read, the rest of the text, and the line after the closing quote.
def quotedBody (quote : Char) (start : Nat) :
    List Char → Nat → List Char → Except Error (List Char × List Char × Nat)
  | _, _, [] => malformed start "unterminated string"
  | _, _, ['\\'] => malformed start "unterminated string"
  | read, line, '\\' :: 'n' :: rest => quotedBody quote start ('\n' :: read) line rest
  | read, line, '\\' :: 't' :: rest => quotedBody quote start ('\t' :: read) line rest
  | read, line, '\\' :: 'r' :: rest => quotedBody quote start ('\r' :: read) line rest
  | read, line, '\\' :: '0' :: rest => quotedBody quote start ('\x00' :: read) line rest
  | read, line, '\\' :: '\\' :: rest => quotedBody quote start ('\\' :: read) line rest
  | read, line, '\\' :: '\'' :: rest => quotedBody quote start ('\'' :: read) line rest
  | read, line, '\\' :: '"' :: rest => quotedBody quote start ('"' :: read) line rest
  | read, line, '\\' :: '\n' :: rest => quotedBody quote start read (line + 1) rest
  | read, line, '\\' :: c :: rest => quotedBody quote start (c :: '\\' :: read) line rest
  | read, line, c :: rest =>
    if c = quote then .ok (read.reverse, rest, line)
    else if c = '\n' then malformed start "unterminated string"
    else quotedBody quote start (c :: read) line rest

def fractionDigits : List Char → Option (List Char) × List Char
  | '.' :: rest =>
    if rest.head?.any startsName then (none, '.' :: rest)
    else
      let (digits, rest) := rest.span Decimal.isDigit
      (some ('.' :: digits), rest)
  | rest => (none, rest)

def exponentDigits : List Char → Option (List Char) × List Char
  | c :: rest =>
    if c = 'e' || c = 'E' then
      let (sign, after) := match rest with
        | '+' :: after => (['+'], after)
        | '-' :: after => (['-'], after)
        | after => ([], after)
      let (digits, after) := after.span Decimal.isDigit
      if digits.isEmpty then (none, c :: rest) else (some (c :: (sign ++ digits)), after)
    else (none, c :: rest)
  | [] => (none, [])

def numberToken (line : Nat) (cs : List Char) : Except Error (Token × List Char) :=
  let (whole, rest) := cs.span fun c => Decimal.isDigit c || c = '_'
  let (fraction, rest) := fractionDigits rest
  let (exponent, rest) := exponentDigits rest
  let whole := whole.filter (· ≠ '_')
  match fraction, exponent with
  | none, none =>
    let text := String.ofList whole
    match Decimal.readInt64? text with
    | some n => .ok (.int n, rest)
    | none => malformed line ("invalid number '" ++ text ++ "'")
  | _, _ =>
    let text := String.ofList (whole ++ fraction.getD [] ++ exponent.getD [])
    match Decimal.readFloat? text with
    | some x => .ok (.float x, rest)
    | none => malformed line ("invalid number '" ++ text ++ "'")

structure Lexer where
  rest : List Char
  line : Nat
  depth : Nat
  indents : List Nat
  read : List Located
  atLineStart : Bool

namespace Lexer

def ofText (text : String) : Lexer :=
  { rest := text.toList, line := 1, depth := 0, indents := [0], read := [], atLineStart := true }

def push (l : Lexer) (token : Token) : Lexer := { l with read := ⟨token, l.line⟩ :: l.read }

def indentWidth (l : Lexer) : Nat := l.indents.head?.getD 0

def endLine (l : Lexer) : Lexer :=
  match l.read with
  | [] => l
  | t :: _ => if t.token.isNewline then l else l.push .newline

def closeBlocks (width line : Nat) : List Nat → List Located → List Nat × List Located
  | [], read => ([], read)
  | w :: indents, read =>
    if width < w then closeBlocks width line indents (⟨.dedent, line⟩ :: read)
    else (w :: indents, read)

def measure : Nat → List Char → Nat × List Char
  | width, ' ' :: rest => measure (width + 1) rest
  | width, '\t' :: rest => measure (width + 4) rest
  | width, rest => (width, rest)

def isBlankLine : List Char → Bool
  | [] => true
  | c :: _ => c = '\n' || c = '#' || c = '\r'

def skipLine (l : Lexer) : Lexer :=
  match l.rest.dropWhile (· ≠ '\n') with
  | [] => { l with rest := [] }
  | _ :: rest => { l with rest := rest, line := l.line + 1 }

def layOut (l : Lexer) (width : Nat) : Except Error Lexer :=
  if l.indentWidth < width then
    .ok ({ l with indents := width :: l.indents }.push .indent)
  else
    let (indents, read) := closeBlocks width l.line l.indents l.read
    if indents.head?.getD 0 = width then .ok { l with indents, read }
    else malformed l.line "unindent does not match any outer level"

def operatorAt? (cs : List Char) : Option String :=
  operators.find? fun op => op.toList.isPrefixOf cs

def operatorStep (l : Lexer) (c : Char) : Except Error Lexer :=
  match operatorAt? l.rest with
  | none => malformed l.line ("unexpected character '" ++ String.singleton c ++ "'")
  | some op =>
    let next := { l with rest := l.rest.drop op.length }
    if isOpening op then .ok ({ next with depth := l.depth + 1 }.push (.op op))
    else if isClosing op then
      if l.depth = 0 then malformed l.line ("unmatched '" ++ op ++ "'")
      else .ok ({ next with depth := l.depth - 1 }.push (.op op))
    else .ok (next.push (.op op))

def tokenStep (l : Lexer) : Except Error Lexer :=
  match l.rest with
  | [] => .ok l
  | '\n' :: rest =>
    let l := { l with rest }
    let l := if l.depth = 0 then { l.endLine with atLineStart := true } else l
    .ok { l with line := l.line + 1 }
  | '\\' :: '\n' :: rest => .ok { l with rest, line := l.line + 1 }
  | c :: rest =>
    if c = ' ' || c = '\t' || c = '\r' then .ok { l with rest }
    else if c = '#' then .ok { l with rest := rest.dropWhile (· ≠ '\n') }
    else if c = '\'' || c = '"' then do
      let (text, rest, line) ← quotedBody c l.line [] l.line rest
      .ok ({ l with rest, line }.push (.str (String.ofList text)))
    else if Decimal.isDigit c then do
      let (token, rest) ← numberToken l.line l.rest
      .ok ({ l with rest }.push token)
    else if startsName c then
      let (name, rest) := l.rest.span continuesName
      .ok ({ l with rest }.push (.name (String.ofList name)))
    else l.operatorStep c

def step (l : Lexer) : Except Error Lexer :=
  if l.atLineStart && l.depth = 0 then
    let (width, rest) := measure 0 l.rest
    let l := { l with rest }
    if isBlankLine rest then .ok l.skipLine
    else do
      let l ← l.layOut width
      { l with atLineStart := false }.tokenStep
  else l.tokenStep

-- Steps until the text is used up. Every step uses at least one character, so the number of
-- characters is enough fuel.
def run : Nat → Lexer → Except Error Lexer
  | 0, l => .ok l
  | fuel + 1, l =>
    if l.rest.isEmpty then .ok l
    else do
      let l ← l.step
      run fuel l

def finish (l : Lexer) : Except Error (List Located) :=
  if 0 < l.depth then malformed l.line "unexpected end of input inside brackets"
  else
    let l := l.endLine
    let (_, read) := closeBlocks 0 l.line l.indents l.read
    .ok (⟨.eof, l.line⟩ :: read).reverse

end Lexer

def tokenize (text : String) : Except Error (List Located) := do
  let l ← (Lexer.ofText text).run text.length
  l.finish

end Flowstep.Script
