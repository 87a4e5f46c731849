import Flowstep.Decimal.Read
import Flowstep.Package.Manager
import Flowstep.Text.Blank

/-!
A shell is one of the programs that a package manager can be, and this one stands in for them where the manager is tried
out. It is no part of what the other modules describe, and they do not depend on it.
-/
namespace Flowstep.Shell

open Package (Ran)

inductive Piece where
  | text (s : String) (isQuoted : Bool)
  | param (name : String) (default : Option String) (isQuoted : Bool)

def Piece.raw? : Piece → Option String
  | .text s false => some s
  | _ => none

abbrev Word := List Piece

def Word.plain (w : Word) : String := String.join ((w.mapM Piece.raw?).getD [])

inductive Token where
  | word (w : Word)
  | op (symbol : String)

def Token.name : Token → String
  | .word w => w.plain
  | .op symbol => symbol

def isNameChar (c : Char) : Bool := c.isAlphanum || c == '_'

def isSpecial (c : Char) : Bool := c.isDigit || "@*#?$!-".contains c

def parameter? (isQuoted : Bool) : List Char → Option (Piece × List Char)
  | '\x7b' :: rest =>
    let (inner, rest) := rest.span (· != '\x7d')
    let (name, tail) := inner.span fun c => isNameChar c || isSpecial c && c != '-'
    match rest, tail with
    | _ :: rest, [] => some (.param (String.ofList name) none isQuoted, rest)
    | _ :: rest, ':' :: '-' :: d | _ :: rest, '-' :: d =>
      some (.param (String.ofList name) (some (String.ofList d)) isQuoted, rest)
    | _, _ => none
  | c :: rest =>
    let (name, rest) := if isNameChar c && !c.isDigit then (c :: rest).span isNameChar else ([c], rest)
    if isNameChar c || isSpecial c then some (.param (String.ofList name) none isQuoted, rest) else none
  | [] => none

structure Scanner where
  tokens : List Token := []
  word : Option Word := none

namespace Scanner

def add (s : Scanner) (p : Piece) : Scanner := { s with word := some (s.word.getD [] ++ [p]) }

def endWord (s : Scanner) : Scanner := ⟨s.tokens ++ (s.word.map .word).toList, none⟩

def addOp (s : Scanner) (symbol : String) : Scanner := ⟨s.endWord.tokens ++ [.op symbol], none⟩

-- A digit before a redirection says which stream is meant.
def redirect (s : Scanner) (symbol : String) : Scanner :=
  match s.word with
  | some [.text "1" false] => { s with word := none }.addOp symbol
  | some [.text "2" false] => { s with word := none }.addOp ("2" ++ symbol)
  | _ => s.addOp symbol

end Scanner

-- What a character does to the quote that is open, or a blank, to the scanner and to the rest of the text.
def step (quote : Char) (s : Scanner) (c : Char) (rest : List Char) : Char × Scanner × List Char :=
  let put (s : Scanner) (c : Char) (isQuoted : Bool) := s.add (.text c.toString isQuoted)
  let plainly := (quote, put s c (quote != ' '), rest)
  if c == quote then (' ', if c == ' ' then s.endWord else s, rest)
  else if quote == '\'' then plainly
  else match c, rest with
    | '$', rest =>
      match parameter? (quote == '"') rest with
      | some (p, rest) => (quote, s.add p, rest)
      | none => plainly
    | '\\', '\n' :: rest => (quote, s, rest)
    | '\\', d :: rest => (quote, put (if quote == ' ' || "$\"\\\x60".contains d then s else put s c true) d true, rest)
    | c, rest =>
      if quote == '"' then plainly
      else if c == '"' || c == '\'' then
        if rest.head? == some c then (quote, s.add (.text "" true), rest.tail) else (c, s, rest)
      else if c == '#' && s.word.isNone then (quote, s, rest.dropWhile (· != '\n'))
      else if c == '>' then
        match rest with
        | '&' :: rest => (quote, s.redirect ">&", rest)
        | '>' :: rest | rest => (quote, s.redirect ">", rest)
      else if "&|;".contains c && rest.head? == some c then (quote, s.addOp (String.ofList [c, c]), rest.tail)
      else if ";&|()<\n".contains c then (quote, s.addOp c.toString, rest)
      else if c == '\t' then (quote, s.endWord, rest)
      else plainly

def scan : Nat → Char → Scanner → List Char → Option (List Token)
  | 0, _, _, _ => none
  | _, quote, s, [] => if quote == ' ' then some s.endWord.tokens else none
  | fuel + 1, quote, s, c :: rest =>
    let (quote, s, rest) := step quote s c rest
    scan fuel quote s rest

structure State where
  name : String
  positional : List String
  bindings : Dict String := ∅
  status : Nat := 0
  -- What was written, and whether to the output or to the errors.
  written : List (Bool × String) := []
  elapsed : Duration := ⟨0⟩

namespace State

def value (x : State) (name : String) (default : Option String) : String :=
  let v := match name with
    | "0" => x.name
    | "#" => toString x.positional.length
    | "?" => toString x.status
    | "@" | "*" => Text.joinWith " " x.positional
    | _ => ((name.toNat?.map fun n => x.positional[n - 1]?).getD (x.bindings.get? name)).getD ""
  if v.isEmpty then default.getD "" else v

def text (x : State) (w : Word) : String :=
  String.join (w.map fun
    | .text s _ => s
    | .param name default _ => x.value name default)

-- The parts of a piece, and nothing where a field ends.
def parts (x : State) : Piece → List (Option String)
  | .text s _ => [some s]
  | .param "@" none true => (x.positional.map some).intersperse none
  | .param name default true => [some (x.value name default)]
  | .param name default false =>
    (x.value name default).toList.map fun c => if " \t\n".contains c then none else some c.toString

def fields (x : State) (w : Word) : List String :=
  let step (f : List String × Option String) : Option String → List String × Option String
    | some s => (f.1, some (f.2.getD "" ++ s))
    | none => (f.1 ++ f.2.toList, none)
  ((w.flatMap x.parts ++ [none]).foldl step ([], none)).1

def assign (x : State) (name value : String) : State := { x with bindings := x.bindings.insert name value }

def assigned? (x : State) (w : Word) : Option State := do
  let isRaw (p : Piece) : Bool := p.raw?.isSome
  let (name, value) ← Text.cutAt? '=' (Word.plain (w.takeWhile isRaw))
  guard (name.toList.head?.any (!·.isDigit) && name.toList.all isNameChar)
  return x.assign name (value ++ x.text (w.dropWhile isRaw))

end State

def globMatches : List Char → List Char → Bool
  | [], s => s.isEmpty
  | '*' :: p, s => (List.range (s.length + 1)).any fun n => globMatches p (s.drop n)
  | _ :: _, [] => false
  | c :: p, d :: s => (c == '?' || c == d) && globMatches p s

-- A command gives its status. It is ended by an exit, or because it would go on for longer than anyone waits.
abbrev Command := EStateM (Option Nat) State Nat

def write (s : String) (isOut : Bool) (status : Nat) : Command :=
  modifyGet fun x => (status, { x with written := x.written ++ [(isOut, s)] })

def setStatus (status : Nat) : Command := modifyGet fun x => (status, { x with status })

def statusOf (b : Bool) : Nat := if b then 0 else 1

def escapes : List (Char × Char) :=
  [('n', '\n'), ('t', '\t'), ('r', '\r'), ('a', '\x07'), ('b', '\x08'), ('f', '\x0c'), ('v', '\x0b'), ('\\', '\\')]

def unescape : List Char → List Char × Bool
  | '\\' :: 'c' :: _ => ([], true)
  | '\\' :: c :: rest => (unescape rest).map (((escapes.lookup c).map ([·])).getD ['\\', c] ++ ·) id
  | c :: rest => (unescape rest).map (c :: ·) id
  | [] => ([], false)

def format : List Char → List String → String → String × List String × Bool
  | '%' :: '%' :: f, args, acc => format f args (acc.push '%')
  | '%' :: 's' :: f, args, acc =>
    let (text, rest, _) := format f args.tail (acc ++ args.head?.getD "")
    (text, rest, true)
  | '%' :: 'd' :: f, args, acc =>
    let number := (args.head?.bind Decimal.readInt64?).getD 0
    let (text, rest, _) := format f args.tail (acc ++ toString number.toInt)
    (text, rest, true)
  | c :: f, args, acc => format f args (acc.push c)
  | [], args, acc => (acc, args, false)

def formatAll (f : List Char) : Nat → List String → String
  | 0, _ => ""
  | n + 1, args =>
    let (text, rest, asked) := format f args ""
    if asked && !rest.isEmpty then text ++ formatAll f n rest else text

def test : List String → Bool
  | [s] => !s.isEmpty
  | "!" :: rest => !test rest
  | ["-n", s] => !s.isEmpty
  | ["-z", s] => s.isEmpty
  | [a, "=", b] => a == b
  | [a, "!=", b] => a != b
  | [a, op, b] =>
    match Decimal.readInt64? a, Decimal.readInt64? b with
    | some x, some y =>
      match compare x.toInt y.toInt with
      | .lt => ["-lt", "-le", "-ne"].contains op
      | .eq => ["-eq", "-le", "-ge"].contains op
      | .gt => ["-gt", "-ge", "-ne"].contains op
    | _, _ => false
  | _ => false

def program? (name : String) (args : List String) : Option Command :=
  match name, args with
  | "echo", args =>
    let isBare := args.head? == some "-n"
    let (text, ends) := unescape (Text.joinWith " " (if isBare then args.tail else args)).toList
    some (write (String.ofList text ++ if isBare || ends then "" else "\n") true 0)
  | "printf", [] => some (write "printf: usage: printf format [arg ...]\n" false 2)
  | "printf", f :: args => some (write (formatAll (unescape f.toList).1 (args.length + 1) args) true 0)
  | "true", _ | "cat", _ => some (return 0)
  | "false", _ => some (return 1)
  | "test", args => some (return statusOf (test args))
  | "sleep", args =>
    let seconds := ((args.head?.bind Decimal.readFloat?).filter Float.isFinite).getD 0
    some (modifyGet fun x => (0, { x with elapsed := ⟨x.elapsed.nanos + (Duration.ofFloat seconds).nanos⟩ }))
  | _, _ => none

def runOrdinary (name : String) (args : List String) : Command := do
  (program? name args).getD (write ((← get).name ++ ": 1: " ++ name ++ ": not found\n") false 127)

def runFields (name : String) (args : List String) : Command := do
  match name, args with
  | ":", _ | "exec", [] => return 0
  | "exit", args => throw (some (((args.head?.bind Decimal.readNat64?).map (· % 256)).getD (← get).status))
  | "shift", _ => modifyGet fun x => (0, { x with positional := x.positional.tail })
  | "[", args => return statusOf (test args.dropLast)
  | "exec", name :: args => throw (some (← runOrdinary name args))
  | name, args => runOrdinary name args

-- Where the output and the errors go: to the output, to the errors, or nowhere.
def route (ways : Option Bool × Option Bool) : String → Option Bool × Option Bool
  | ">&2" => (ways.2, ways.2)
  | "2>&1" => (ways.1, ways.1)
  | ">/dev/null" => (none, ways.2)
  | "2>/dev/null" => (ways.1, none)
  | _ => ways

def redirected (redirects : List String) (run : Command) : Command := fun x =>
  let ways := redirects.foldl route (some true, some false)
  let sent (y : State) : State :=
    { y with written := x.written ++ y.written.filterMap fun w => (if w.1 then ways.1 else ways.2).map (·, w.2) }
  match run { x with written := [] } with
  | .ok status y => .ok status (sent y)
  | .error halt y => .error halt (sent y)

def simple (redirects : List String) : List Word → Command
  | [] => setStatus 0
  | w :: rest => do
    let x ← get
    match x.assigned? w with
    | some y =>
      set y
      simple redirects rest
    | none =>
      match (w :: rest).flatMap x.fields with
      | [] => setStatus 0
      | name :: args => setStatus (← redirected redirects (runFields name args))

def contained (run : Command) : Command := fun x =>
  let left (y : State) : State := { x with written := y.written, elapsed := y.elapsed }
  match run x with
  | .ok status y | .error (some status) y => .ok status (left y)
  | .error none y => .error none y

def branch (otherwise : Command) : List (Command × Command) → Command
  | [] => otherwise
  | (test, body) :: rest => do if (← test) == 0 then body else branch otherwise rest

def loop (test body : Command) (inverted : Bool) : Nat → Command
  | 0 => throw none
  | n + 1 => do
    if ((← test) == 0) == inverted then return 0
    let _ ← body
    loop test body inverted n

namespace Parser

abbrev Read := StateT (List Token) Option

def many {α : Type} (p : Read α) : Read (List α) := fun ts =>
  let rec go : Nat → List Token → List α × List Token
    | 0, ts => ([], ts)
    | n + 1, ts =>
      match p ts with
      | some (a, rest) => (go n rest).map (a :: ·) id
      | none => ([], ts)
  some (go ts.length ts)

def next : Read String := return ((← get).head?.map Token.name).getD ""

def oneOf (names : List String) : Read String := do
  let name ← next
  guard (names.contains name)
  modifyGet fun ts => (name, ts.tail)

def expect (name : String) : Read Unit := discard (oneOf [name])

def accept (names : List String) : Read Unit := discard (oneOf names) <|> return

def skipLines : Read Unit := modify (·.dropWhile (·.name == "\n"))

def word : Read Word := do
  match ← get with
  | .word w :: rest => modifyGet fun _ => (w, rest)
  | _ => failure

def redirect : Read String := do
  let symbol ← oneOf [">&", "2>&", ">", "2>", "<"]
  let whole := symbol ++ (← word).plain
  guard (symbol == "<" || [">&1", ">&2", "2>&1", ">/dev/null", "2>/dev/null"].contains whole)
  return whole

section

variable (list : Read Command)

def conditional : Read Command := do
  let test ← list <* expect "then"
  let body ← list
  let others ← many do
    expect "elif"
    return (← list <* expect "then", ← list)
  let otherwise ← (do expect "else"; list) <|> return setStatus 0
  expect "fi"
  return branch otherwise ((test, body) :: others)

def forEach : Read Command := do
  let name := (← word).plain
  let items ← (do skipLines; expect "in"; many word) <|> return [[.param "@" none true]]
  accept [";"]
  skipLines
  expect "do"
  let body ← list <* expect "done"
  return do (items.flatMap (← get).fields).foldlM (fun _ item => do modify (·.assign name item); body) 0

def arm (subject : Word) : Read (Command × Command) := do
  guard ((← next) != "esac")
  accept ["("]
  let patterns := (← many (word <* expect "|")) ++ [← word <* expect ")"]
  let body ← list
  accept [";;"]
  skipLines
  let test : Command := do
    let x ← get
    return statusOf (patterns.any fun p => globMatches (x.text p).toList (x.text subject).toList)
  return (test, body)

def selection : Read Command := do
  let subject ← word
  skipLines
  expect "in"
  skipLines
  let arms ← many (arm list subject)
  expect "esac"
  return branch (return 0) arms

def command : Read Command := do
  let compound (p : Read Command) : Read Command := do
    modify List.tail
    let c ← p
    return redirected (← many redirect) c
  match ← next with
  | "if" => compound (conditional list)
  | "while" => compound do return loop (← list <* expect "do") (← list <* expect "done") false 100000
  | "until" => compound do return loop (← list <* expect "do") (← list <* expect "done") true 100000
  | "for" => compound (forEach list)
  | "case" => compound (selection list)
  | "\x7b" => compound (list <* expect "\x7d")
  | "(" => compound do return contained (← list <* expect ")")
  | _ =>
    let parts ← many ((do return .inl (← word)) <|> (do return .inr (← redirect)))
    guard !parts.isEmpty
    return simple (parts.filterMap Sum.getRight?) (parts.filterMap Sum.getLeft?)

def pipeline : Read Command :=
  (do
    expect "!"
    let c ← command list
    return do setStatus (statusOf ((← c) != 0))) <|> command list

def andOr : Read Command := do
  let first ← pipeline list
  let others ← many do
    let symbol ← oneOf ["&&", "||"]
    skipLines
    return (symbol == "&&", ← pipeline list)
  return do others.foldlM (fun status c => if (status == 0) == c.1 then c.2 else return status) (← first)

end

-- The commands that are nested no deeper than this.
def list : Nat → Read Command
  | 0 => failure
  | depth + 1 => do
    let command : Read Command := do
      skipLines
      guard !([")", ";;", "then", "else", "elif", "fi", "do", "done", "esac", "\x7d"].contains (← next))
      andOr (list depth)
    let separators := [";", "\n", "&"]
    let commands ← (do return (← command) :: (← many (oneOf separators *> command))) <|> return []
    unless commands.isEmpty do accept separators
    skipLines
    return commands.foldlM (fun _ c => c) 0

end Parser

def resultOf (run : Command) (name : String) (args : List String) : Ran :=
  let made (status : Nat) (x : State) : Ran :=
    let written (isOut : Bool) := String.join ((x.written.filter (·.1 == isOut)).map (·.2))
    { status, out := written true, err := written false, elapsed := x.elapsed }
  match run { name, positional := args } with
  | .ok status x | .error (some status) x => made status x
  | .error none x => { made 1 x with endless := true }

def runText (text name : String) (args : List String) : Ran :=
  match (scan (text.length + 1) ' ' {} text.toList).bind (Parser.list text.length) with
  | some (run, []) => resultOf run name args
  | _ => resultOf (write (name ++ ": 1: Syntax error\n") false 2) name args

def runProgram? (name : String) (args : List String) : Option Ran :=
  if ["sh", "/bin/sh", "dash", "/bin/dash"].contains name then
    some (match args with
      | "-c" :: text :: args => runText text (args.head?.getD "sh") args.tail
      | file :: _ => resultOf (write ("sh: 0: cannot open " ++ file ++ ": No such file\n") false 2) "sh" []
      | [] => resultOf (return 0) "sh" [])
  else (program? name args).map (resultOf · name args)

end Flowstep.Shell
