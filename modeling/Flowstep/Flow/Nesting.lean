import Flowstep.Flow.Tree

/-!
Tokens nested into statements by recursive descent.
-/
namespace Flowstep.Flow

inductive Issue where
  | outsideLoop (line : Nat) (key : Keyword)
  | extraCatch (line : Nat)
  | unexpected (line : Nat) (key : Keyword)
deriving DecidableEq, Repr

def Issue.message : Issue → String
  | .outsideLoop line key =>
    "line " ++ toString line ++ ": `" ++ key.word ++ "` is only allowed inside a loop"
  | .extraCatch line => "line " ++ toString line ++ ": a try block accepts only one catch"
  | .unexpected line key =>
    "line " ++ toString line ++ ": `" ++ key.word ++ "` does not match any open block"

def elseClosers : List Keyword := [.ifEnd]

def ifClosers : List Keyword := [.elseIf, .else, .ifEnd]

def finallyClosers : List Keyword := [.tryEnd]

def tryClosers : List Keyword := [.catch, .finally, .tryEnd]

def LoopKind.closer : LoopKind → Keyword
  | .while => .whileEnd
  | _ => .forEnd

def Token.isAny (t : Token) (keys : List Keyword) : Bool :=
  match t.kind with
  | .keyword key => keys.contains key
  | _ => false

-- What was read from the front of some tokens: a value, the issues found on the way and the tokens
-- that are left, of which there are at most `limit`.
structure Parsed (α : Type) (limit : Nat) where
  value : α
  issues : List Issue
  rest : List Token
  fits : rest.length ≤ limit

namespace Parsed

variable {α β : Type} {limit : Nat}

def stay (value : α) (rest : List Token) : Parsed α rest.length := ⟨value, [], rest, Nat.le_refl _⟩

def bind (first : Parsed α limit)
    (next : α → (rest : List Token) → rest.length ≤ limit → Parsed β rest.length) : Parsed β limit :=
  let second := next first.value first.rest first.fits
  ⟨second.value, first.issues ++ second.issues, second.rest, Nat.le_trans second.fits first.fits⟩

def map (f : α → β) (p : Parsed α limit) : Parsed β limit := ⟨f p.value, p.issues, p.rest, p.fits⟩

def note (p : Parsed α limit) (issues : List Issue) : Parsed α limit :=
  { p with issues := p.issues ++ issues }

def after (p : Parsed α limit) : Parsed α (limit + 1) :=
  ⟨p.value, p.issues, p.rest, Nat.le_succ_of_le p.fits⟩

@[simp] theorem stay_value (value : α) (rest : List Token) : (Parsed.stay value rest).value = value := rfl
@[simp] theorem stay_issues (value : α) (rest : List Token) : (Parsed.stay value rest).issues = [] := rfl
@[simp] theorem stay_rest (value : α) (rest : List Token) : (Parsed.stay value rest).rest = rest := rfl

variable (p : Parsed α limit)
  (next : α → (rest : List Token) → rest.length ≤ limit → Parsed β rest.length)

@[simp] theorem bind_value : (p.bind next).value = (next p.value p.rest p.fits).value := rfl
@[simp] theorem bind_issues :
    (p.bind next).issues = p.issues ++ (next p.value p.rest p.fits).issues := rfl
@[simp] theorem bind_rest : (p.bind next).rest = (next p.value p.rest p.fits).rest := rfl

@[simp] theorem map_value (f : α → β) : (p.map f).value = f p.value := rfl
@[simp] theorem map_issues (f : α → β) : (p.map f).issues = p.issues := rfl
@[simp] theorem map_rest (f : α → β) : (p.map f).rest = p.rest := rfl

@[simp] theorem note_value (issues : List Issue) : (p.note issues).value = p.value := rfl
@[simp] theorem note_issues (issues : List Issue) : (p.note issues).issues = p.issues ++ issues := rfl
@[simp] theorem note_rest (issues : List Issue) : (p.note issues).rest = p.rest := rfl

@[simp] theorem after_value : p.after.value = p.value := rfl
@[simp] theorem after_issues : p.after.issues = p.issues := rfl
@[simp] theorem after_rest : p.after.rest = p.rest := rfl

end Parsed

-- Reads the token that ends a block, whatever it is; its step counts if it is the closer.
def closing (closer : Keyword) : (tokens : List Token) → Parsed (Option Step) tokens.length
  | [] => .stay none []
  | t :: rest => (Parsed.stay (if t.kind = .keyword closer then some t.step else none) rest).after

mutual

@[semireducible]
def statement (depth : Nat) (t : Token) (rest : List Token) :
    Parsed (Option Statement) rest.length :=
  match t.kind with
  | .atomic => .stay (some (.atomic t.step)) rest
  | .condition => (branch .call depth t.step rest).map some
  | .iterator => (loop .call depth t.step rest).map some
  | .keyword .if => (branch .comparison depth t.step rest).map some
  | .keyword .while => (loop .while depth t.step rest).map some
  | .keyword .forStep => (loop .range depth t.step rest).map some
  | .keyword .forList => (loop .list depth t.step rest).map some
  | .keyword .forDict => (loop .map depth t.step rest).map some
  | .keyword .try => (attempt depth t.step rest).map some
  | .keyword .break =>
    if depth = 0 then (Parsed.stay none rest).note [.outsideLoop t.step.line .break]
    else .stay (some (.break t.step)) rest
  | .keyword .continue =>
    if depth = 0 then (Parsed.stay none rest).note [.outsideLoop t.step.line .continue]
    else .stay (some (.continue t.step)) rest
  | .keyword .return => .stay (some (.return t.step)) rest
  | .keyword key => (Parsed.stay none rest).note [.unexpected t.step.line key]
termination_by 3 * rest.length + 2

@[semireducible]
def block (closers : List Keyword) (depth : Nat) (tokens : List Token) :
    Parsed (List Statement) tokens.length :=
  match tokens with
  | [] => .stay [] []
  | t :: rest =>
    if t.isAny closers then .stay [] (t :: rest)
    else
      ((statement depth t rest).bind fun first rest _ =>
        (block closers depth rest).map (first.toList ++ ·)).after
termination_by 3 * tokens.length

@[semireducible]
def clause (key : Keyword) (closers : List Keyword) (depth : Nat) (tokens : List Token) :
    Parsed (Option Clause) tokens.length :=
  match tokens with
  | [] => .stay none []
  | t :: rest =>
    if t.kind = .keyword key then ((block closers depth rest).map fun body => some ⟨t.step, body⟩).after
    else .stay none (t :: rest)
termination_by 3 * tokens.length

@[semireducible]
def alternatives (depth : Nat) (tokens : List Token) : Parsed (List Clause) tokens.length :=
  match tokens with
  | [] => .stay [] []
  | t :: rest =>
    if t.kind = .keyword .elseIf then
      ((block ifClosers depth rest).bind fun body rest _ =>
        (alternatives depth rest).map (⟨t.step, body⟩ :: ·)).after
    else .stay [] (t :: rest)
termination_by 3 * tokens.length

-- Reads the `catch` clauses that start here. The first one counts, and each one after it is an
-- issue.
@[semireducible]
def handlers (first : Option Clause) (depth : Nat) (tokens : List Token) :
    Parsed (Option Clause) tokens.length :=
  match tokens with
  | [] => .stay first []
  | t :: rest =>
    if t.kind = .keyword .catch then
      (((block tryClosers depth rest).note (if first.isSome then [.extraCatch t.step.line] else [])).bind
        fun body rest _ => handlers (first.or (some ⟨t.step, body⟩)) depth rest).after
    else .stay first (t :: rest)
termination_by 3 * tokens.length

@[semireducible]
def branch (gate : Gate) (depth : Nat) (step : Step) (tokens : List Token) :
    Parsed Statement tokens.length :=
  (block ifClosers depth tokens).bind fun body rest _ =>
  (alternatives depth rest).bind fun others rest _ =>
  (clause .else elseClosers depth rest).bind fun otherwise rest _ =>
  (closing .ifEnd rest).map fun closing => .branch gate step body others otherwise closing
termination_by 3 * tokens.length + 1

@[semireducible]
def loop (kind : LoopKind) (depth : Nat) (step : Step) (tokens : List Token) :
    Parsed Statement tokens.length :=
  (block [kind.closer] (depth + 1) tokens).bind fun body rest _ =>
  (closing kind.closer rest).map fun closing => .loop kind step body closing
termination_by 3 * tokens.length + 1

@[semireducible]
def attempt (depth : Nat) (step : Step) (tokens : List Token) : Parsed Statement tokens.length :=
  (block tryClosers depth tokens).bind fun body rest _ =>
  (handlers none depth rest).bind fun handler rest _ =>
  (clause .finally finallyClosers depth rest).bind fun final rest _ =>
  (closing .tryEnd rest).map fun closing => .attempt step body handler final closing
termination_by 3 * tokens.length + 1

end

def nest (tokens : List Token) : Except (List Issue) (List Statement) :=
  let parsed := block [] 0 tokens
  if parsed.issues.isEmpty then .ok parsed.value else .error parsed.issues

end Flowstep.Flow
