import Flowstep.Script.Lexer
import Flowstep.Script.Tree

/-!
Reading the tree of a script from its tokens, by recursive descent with one token of lookahead (two where a keyword
argument or `not in` may start). The functions take fuel, of which every nested call uses one; `Program.parse` gives
them enough for the number of tokens.
-/
namespace Flowstep.Script

-- A reader of tokens. The last token is the end of the input and is never used up.
abbrev Parser := StateT (List Located) (Except Error)

namespace Parser

def current : Parser Token := fun ts => .ok ((ts.head?.map (·.token)).getD .eof, ts)

def next : Parser Token := fun ts => .ok ((ts[1]?.map (·.token)).getD .eof, ts)

def line : Parser Nat := fun ts => .ok ((ts.head?.map (·.line)).getD 1, ts)

def advance : Parser Unit := fun ts =>
  match ts with
  | _ :: t :: rest => .ok ((), t :: rest)
  | ts => .ok ((), ts)

def refuse {α : Type} (line : Nat) (message : String) : Parser α := fun _ => malformed line message

def unexpected {α : Type} (wanted : String) : Parser α := do
  refuse (← line) ("expected " ++ wanted ++ ", found " ++ (← current).describe)

def atOp (symbol : String) : Parser Bool := do
  match ← current with
  | .op s => return s = symbol
  | _ => return false

def atWord (word : String) : Parser Bool := do
  match ← current with
  | .name n => return n = word
  | _ => return false

def eatOp (symbol : String) : Parser Bool := do
  if ← atOp symbol then
    advance
    return true
  else return false

def eatWord (word : String) : Parser Bool := do
  if ← atWord word then
    advance
    return true
  else return false

def eatNewline : Parser Bool := do
  match ← current with
  | .newline =>
    advance
    return true
  | _ => return false

def eatIndent : Parser Bool := do
  match ← current with
  | .indent =>
    advance
    return true
  | _ => return false

def eatDedent : Parser Bool := do
  match ← current with
  | .dedent =>
    advance
    return true
  | _ => return false

def atEnd : Parser Bool := do
  match ← current with
  | .eof => return true
  | _ => return false

def expectOp (symbol : String) : Parser Unit := do
  if ← eatOp symbol then return ()
  else unexpected ("'" ++ symbol ++ "'")

def expectWord (word : String) : Parser Unit := do
  if ← eatWord word then return ()
  else unexpected ("'" ++ word ++ "'")

def identifier : Parser String := do
  match ← current with
  | .name n =>
    if isReserved n then unexpected "a name"
    else
      advance
      return n
  | _ => unexpected "a name"

def endsStatement : Parser Bool := do
  match ← current with
  | .newline => return true
  | .eof => return true
  | .dedent => return true
  | _ => return false

def compareOp : Parser (Option CmpOp) := do
  let found (op : CmpOp) : Parser (Option CmpOp) := do
    advance
    return some op
  match ← current with
  | .op "==" => found .eq
  | .op "!=" => found .ne
  | .op "<" => found .lt
  | .op "<=" => found .le
  | .op ">" => found .gt
  | .op ">=" => found .ge
  | .name "in" => found .isIn
  | .name "not" =>
    match ← next with
    | .name "in" =>
      advance
      found .notIn
    | _ => return none
  | .name "is" =>
    match ← next with
    | .name "not" =>
      advance
      found .ne
    | _ => found .eq
  | _ => return none

def sumOp : Parser (Option (Expr → Expr → Expr)) := do
  if ← eatOp "+" then return some (.bin .add)
  else if ← eatOp "-" then return some (.bin .sub)
  else return none

def productOp : Parser (Option (Expr → Expr → Expr)) := do
  if ← eatOp "*" then return some (.bin .mul)
  else if ← eatOp "/" then return some (.bin .div)
  else if ← eatOp "%" then return some (.bin .mod)
  else return none

def wordOp (word : String) (build : Expr → Expr → Expr) : Parser (Option (Expr → Expr → Expr)) := do
  if ← eatWord word then return some build
  else return none

def chain (op : Parser (Option (Expr → Expr → Expr))) (operand : Parser Expr) :
    Nat → Expr → Parser Expr
  | 0, _ => refuse 0 "expression too deep"
  | fuel + 1, left => do
    match ← op with
    | some build =>
      let right ← operand
      chain op operand fuel (build left right)
    | none => return left

def moreStrings : Nat → String → Parser String
  | 0, _ => refuse 0 "expression too deep"
  | fuel + 1, text => do
    match ← current with
    | .str more =>
      advance
      moreStrings fuel (text ++ more)
    | _ => return text

-- Goes on with comparisons. In `a < b < c` both comparisons have to hold, and `b` is written into
-- both.
def comparisons (operand : Parser Expr) : Nat → Expr → Option Expr → Parser Expr
  | 0, _, _ => refuse 0 "expression too deep"
  | fuel + 1, left, met => do
    match ← compareOp with
    | some op =>
      let right ← operand
      let link := Expr.cmp op left right
      comparisons operand fuel right (some (match met with
        | some earlier => .and earlier link
        | none => link))
    | none => return met.getD left

def bracketed {α : Type} (close : String) (item : Parser α) : Nat → List α → Parser (List α)
  | 0, _ => refuse 0 "expression too deep"
  | fuel + 1, read => do
    if ← atOp close then return read.reverse
    else
      let a ← item
      if ← eatOp "," then bracketed close item fuel (a :: read)
      else return (a :: read).reverse

def commaItems (item : Parser Expr) : Nat → List Expr → Parser (List Expr)
  | 0, _ => refuse 0 "expression too deep"
  | fuel + 1, read => do
    if ← eatOp "," then
      if (← endsStatement) || (← atOp "=") || (← atOp ":") then return read.reverse
      else
        let e ← item
        commaItems item fuel (e :: read)
    else return read.reverse

def parenItems (item : Parser Expr) : Nat → List Expr → Parser (List Expr)
  | 0, _ => refuse 0 "expression too deep"
  | fuel + 1, read => do
    if ← eatOp "," then
      if ← atOp ")" then return read.reverse
      else
        let e ← item
        parenItems item fuel (e :: read)
    else return read.reverse

def arguments (item : Parser Expr) :
    Nat → List Expr → List (String × Expr) → Parser (List Expr × List (String × Expr))
  | 0, _, _ => refuse 0 "expression too deep"
  | fuel + 1, args, kwargs => do
    if ← atOp ")" then return (args.reverse, kwargs.reverse)
    else
      let keyword := match ← current, ← next with
        | .name n, .op "=" => some n
        | _, _ => none
      match keyword with
      | some n =>
        advance
        advance
        let e ← item
        if ← eatOp "," then arguments item fuel args ((n, e) :: kwargs)
        else return (args.reverse, ((n, e) :: kwargs).reverse)
      | none =>
        if kwargs.isEmpty then
          let e ← item
          if ← eatOp "," then arguments item fuel (e :: args) kwargs
          else return ((e :: args).reverse, kwargs.reverse)
        else refuse (← line) "positional argument follows keyword argument"

def negate : Expr → Expr
  | .lit (.int n) => .lit (.int (-n))
  | .lit (.float x) => .lit (.float (-x))
  | e => .neg e

mutual

def expression : Nat → Parser Expr
  | 0 => refuse 0 "expression too deep"
  | fuel + 1 => do
    let left ← conjunction fuel
    chain (wordOp "or" .or) (conjunction fuel) fuel left

def conjunction : Nat → Parser Expr
  | 0 => refuse 0 "expression too deep"
  | fuel + 1 => do
    let left ← negation fuel
    chain (wordOp "and" .and) (negation fuel) fuel left

def negation : Nat → Parser Expr
  | 0 => refuse 0 "expression too deep"
  | fuel + 1 => do
    if ← eatWord "not" then return .not (← negation fuel)
    else comparison fuel

def comparison : Nat → Parser Expr
  | 0 => refuse 0 "expression too deep"
  | fuel + 1 => do
    let left ← additive fuel
    comparisons (additive fuel) fuel left none

def additive : Nat → Parser Expr
  | 0 => refuse 0 "expression too deep"
  | fuel + 1 => do
    let left ← multiplicative fuel
    chain sumOp (multiplicative fuel) fuel left

def multiplicative : Nat → Parser Expr
  | 0 => refuse 0 "expression too deep"
  | fuel + 1 => do
    let left ← unary fuel
    chain productOp (unary fuel) fuel left

def unary : Nat → Parser Expr
  | 0 => refuse 0 "expression too deep"
  | fuel + 1 => do
    if ← eatOp "-" then return negate (← unary fuel)
    else if ← eatOp "+" then unary fuel
    else
      let base ← atom fuel
      postfixes fuel base

def postfixes : Nat → Expr → Parser Expr
  | 0, _ => refuse 0 "expression too deep"
  | fuel + 1, base => do
    if ← eatOp "(" then
      let (args, kwargs) ← arguments (expression fuel) fuel [] []
      expectOp ")"
      postfixes fuel (.call base args kwargs)
    else if ← eatOp "." then
      let attr ← identifier
      postfixes fuel (.attr base attr)
    else if ← eatOp "[" then
      let index ← expressionList fuel
      expectOp "]"
      postfixes fuel (.index base index)
    else return base

def atom : Nat → Parser Expr
  | 0 => refuse 0 "expression too deep"
  | fuel + 1 => do
    let here ← line
    let token ← current
    advance
    match token with
    | .int n => return .lit (.int n)
    | .float x => return .lit (.float x)
    | .str text => return .lit (.str (← moreStrings fuel text))
    | .name "True" => return .lit (.bool true)
    | .name "False" => return .lit (.bool false)
    | .name "None" => return .lit .none
    | .name n =>
      if isReserved n then refuse here ("unexpected keyword '" ++ n ++ "'")
      else return .name n
    | .op "(" =>
      if ← eatOp ")" then return .list []
      else
        let first ← expression fuel
        if ← eatOp ")" then return first
        else
          let items ← parenItems (expression fuel) fuel [first]
          expectOp ")"
          return .list items
    | .op "[" =>
      let items ← bracketed "]" (expression fuel) fuel []
      expectOp "]"
      return .list items
    | .op "\x7b" =>
      let entries ← bracketed "\x7d" (entry fuel) fuel []
      expectOp "\x7d"
      return .dict entries
    | other => refuse here ("unexpected " ++ other.describe)

def entry : Nat → Parser (Expr × Expr)
  | 0 => refuse 0 "expression too deep"
  | fuel + 1 => do
    let key ← expression fuel
    expectOp ":"
    let value ← expression fuel
    return (key, value)

def expressionList : Nat → Parser Expr
  | 0 => refuse 0 "expression too deep"
  | fuel + 1 => do
    let first ← expression fuel
    if ← atOp "," then return .list (← commaItems (expression fuel) fuel [first])
    else return first

end

attribute [grind =] expression conjunction negation comparison additive multiplicative unary postfixes atom entry
  expressionList

def operand (fuel : Nat) : Parser Expr := do
  let base ← atom fuel
  postfixes fuel base

def target? : Expr → Option Target
  | .name n => some (.name n)
  | .index object index => some (.index object index)
  | _ => none

def targets (line : Nat) (e : Expr) : Parser (List Target) :=
  let found := match e with
    | .list items => items.mapM target?
    | e => (target? e).map ([·])
  match found with
  | some ts => return ts
  | none => refuse line "cannot assign to expression"

def loopTargets (fuel here : Nat) : Nat → List Target → Parser (List Target)
  | 0, _ => refuse 0 "expression too deep"
  | n + 1, read => do
    let e ← operand fuel
    let read := read ++ (← targets here e)
    if !(← eatOp ",") || (← atWord "in") then return read
    else loopTargets fuel here n read

def dottedRest : Nat → String → Parser String
  | 0, _ => refuse 0 "expression too deep"
  | fuel + 1, name => do
    if ← eatOp "." then
      let more ← identifier
      dottedRest fuel (name ++ "." ++ more)
    else return name

def dottedName (fuel : Nat) : Parser String := do
  let first ← identifier
  dottedRest fuel first

def skipStatement : Nat → Parser Unit
  | 0 => refuse 0 "expression too deep"
  | fuel + 1 => do
    if ← endsStatement then return ()
    else
      advance
      skipStatement fuel

def augmentedOp : Parser (Option BinOp) := do
  if ← eatOp "+=" then return some .add
  else if ← eatOp "-=" then return some .sub
  else if ← eatOp "*=" then return some .mul
  else if ← eatOp "/=" then return some .div
  else if ← eatOp "%=" then return some .mod
  else return none

def assignment (fuel : Nat) : Parser StmtKind := do
  let first ← expressionList fuel
  if ← atOp "=" then
    let ts ← targets (← line) first
    advance
    let value ← expressionList fuel
    if ← atOp "=" then refuse (← line) "chained assignment is not supported"
    else return .assign ts value
  else
    match ← augmentedOp with
    | some op =>
      match ← targets (← line) first with
      | [single] => return .augAssign single op (← expressionList fuel)
      | _ => refuse (← line) "illegal target for augmented assignment"
    | none => return .expr first

def simple (fuel : Nat) : Parser StmtKind := do
  if ← eatWord "pass" then return .pass
  else if ← eatWord "break" then return .break
  else if ← eatWord "continue" then return .continue
  else if ← eatWord "return" then
    if ← endsStatement then return .return none
    else return .return (some (← expressionList fuel))
  else if ← eatWord "raise" then
    if ← endsStatement then return .raise none
    else return .raise (some (← expression fuel))
  else
    let loads ← eatWord "import"
    if ← eatWord "from" then
      let name ← dottedName fuel
      skipStatement fuel
      return .load name
    else if loads then return .load (← dottedName fuel)
    else assignment fuel

def simpleLine (fuel here : Nat) : Parser Stmt := do
  let kind ← simple fuel
  if (← eatNewline) || (← atEnd) then return ⟨here, kind⟩
  else unexpected "end of line"

def parameters (fuel : Nat) : Parser (List String) := do
  expectOp "("
  let params ← bracketed ")" identifier fuel []
  expectOp ")"
  return params

mutual

def statement : Nat → Parser Stmt
  | 0 => refuse 0 "block too deep"
  | fuel + 1 => do
    let here ← line
    match ← current with
    | .indent => refuse here "unexpected indent"
    | .name "def" =>
      advance
      let name ← identifier
      let params ← parameters fuel
      let body ← suite fuel
      return ⟨here, .define ⟨name, params, body, here⟩⟩
    | .name "if" =>
      advance
      let test ← expression fuel
      let body ← suite fuel
      let (arms, otherwise) ← arms fuel [⟨here, test, body⟩]
      return ⟨here, .ifChain arms otherwise⟩
    | .name "while" =>
      advance
      let test ← expression fuel
      let body ← suite fuel
      return ⟨here, .whileLoop test body⟩
    | .name "for" =>
      advance
      let ts ← loopTargets fuel (← line) fuel []
      expectWord "in"
      let source ← expressionList fuel
      let body ← suite fuel
      return ⟨here, .forLoop ts source body⟩
    | .name "try" =>
      advance
      let body ← suite fuel
      let handler ← handler fuel
      let final ← finalSuite fuel
      if handler.isNone && final.isNone then unexpected "'except' or 'finally'"
      else return ⟨here, .tryBlock body handler final⟩
    | _ => simpleLine fuel here

def arms : Nat → List Arm → Parser (List Arm × Option Suite)
  | 0, _ => refuse 0 "block too deep"
  | fuel + 1, read => do
    let here ← line
    if ← eatWord "elif" then
      let test ← expression fuel
      let body ← suite fuel
      arms fuel (⟨here, test, body⟩ :: read)
    else if ← eatWord "else" then
      let body ← suite fuel
      return (read.reverse, some ⟨here, body⟩)
    else return (read.reverse, none)

-- The clause for failures, if there is one. The class of the failures is not looked at.
def handler : Nat → Parser (Option Handler)
  | 0 => refuse 0 "block too deep"
  | fuel + 1 => do
    let here ← line
    if ← eatWord "except" then
      let name ← if ← atOp ":" then pure none
        else do
          let _ ← operand fuel
          if ← eatWord "as" then pure (some (← identifier)) else pure none
      let body ← suite fuel
      if ← atWord "except" then refuse (← line) "only one except clause is supported"
      else return some ⟨here, name, body⟩
    else return none

def finalSuite : Nat → Parser (Option Suite)
  | 0 => refuse 0 "block too deep"
  | fuel + 1 => do
    let here ← line
    if ← eatWord "finally" then
      let body ← suite fuel
      return some ⟨here, body⟩
    else return none

def suite : Nat → Parser (List Stmt)
  | 0 => refuse 0 "block too deep"
  | fuel + 1 => do
    expectOp ":"
    if ← eatNewline then
      if ← eatIndent then block fuel []
      else unexpected "an indented block"
    else
      let stmt ← simpleLine fuel (← line)
      return [stmt]

def block : Nat → List Stmt → Parser (List Stmt)
  | 0, _ => refuse 0 "block too deep"
  | fuel + 1, read => do
    if ← eatDedent then return read.reverse
    else if ← atEnd then return read.reverse
    else if ← eatNewline then block fuel read
    else
      let stmt ← statement fuel
      block fuel (stmt :: read)

end

attribute [grind =] statement arms handler finalSuite suite block

def topLevel : Nat → List Stmt → Parser (List Stmt)
  | 0, _ => refuse 0 "block too deep"
  | fuel + 1, read => do
    if ← atEnd then return read.reverse
    else if ← eatNewline then topLevel fuel read
    else
      let stmt ← statement fuel
      topLevel fuel (stmt :: read)

end Parser

-- Fuel for a list of tokens: an expression or a statement passes through fewer than sixteen functions
-- before it uses a token.
def parseFuel (tokens : List Located) : Nat := 16 * (tokens.length + 2)

def Program.ofTokens (tokens : List Located) : Except Error Program := do
  let (body, _) ← Parser.topLevel (parseFuel tokens) [] tokens
  return ⟨body⟩

def Program.parse (text : String) : Except Error Program := do
  let tokens ← tokenize text
  Program.ofTokens tokens

end Flowstep.Script
