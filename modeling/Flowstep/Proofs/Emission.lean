import Flowstep.Code.Emit
import Flowstep.Proofs.Outcome

/-!
Induction over the code of a flow: what the pieces of the code keep holds of the lines of every statement.
-/
namespace Flowstep.Code

open Flowstep.Flow (Step Statement Clause Gate LoopKind)

structure Motive where
  statement : Nat → Statement → List Line → Prop
  all : Nat → List Statement → List Line → Prop
  block : Nat → List Statement → List Line → Prop
  alternatives : Nat → List Clause → List Line → Prop
  clause : Nat → String → Option Clause → List Line → Prop

structure Motive.Kept (P : Motive) (c : Context) : Prop where
  atomic : ∀ {indent step lines}, c.callLines step indent = .ok lines → P.statement indent (.atomic step) lines
  «break» : ∀ indent step, P.statement indent (.break step) [⟨indent, "break", some step.line⟩]
  «continue» : ∀ indent step, P.statement indent (.continue step) [⟨indent, "continue", some step.line⟩]
  «return» : ∀ indent step, P.statement indent (.return step) [⟨indent, "return", some step.line⟩]
  branch : ∀ {gate step body alternatives otherwise header inner middle last} indent closing,
    c.branchLines gate step indent = .ok header → emitBlock c (indent + 1) body = .ok inner →
    emitAlternatives c indent alternatives = .ok middle → P.block (indent + 1) body inner →
    P.alternatives indent alternatives middle → P.clause indent "else:" otherwise last →
    P.statement indent (.branch gate step body alternatives otherwise closing)
      (header ++ inner ++ middle ++ last ++ closerLine indent closing)
  loop : ∀ {kind step body header inner} indent closing, c.loopLines kind step indent = .ok header →
    emitBlock c (indent + 1) body = .ok inner → P.block (indent + 1) body inner →
    P.statement indent (.loop kind step body closing) (header ++ inner ++ closerLine indent closing)
  attempt : ∀ {body inner caught last} indent step handler final closing, emitBlock c (indent + 1) body = .ok inner →
    emitClause c indent "except Exception as __error__:" handler = .ok caught → P.block (indent + 1) body inner →
    P.clause indent "except Exception as __error__:" handler caught → P.clause indent "finally:" final last →
    P.statement indent (.attempt step body handler final closing) (⟨indent, "try:", some step.line⟩ :: inner ++ caught ++ last ++
      missingClause indent handler final ++ closerLine indent closing)
  nil : ∀ indent, P.all indent [] []
  cons : ∀ {indent s rest first others}, emit c indent s = .ok first → P.statement indent s first → P.all indent rest others →
    P.all indent (s :: rest) (first ++ others)
  empty : ∀ indent, P.block indent [] [⟨indent, "pass", none⟩]
  filled : ∀ {indent s rest lines}, P.all indent (s :: rest) lines → P.block indent (s :: rest) lines
  done : ∀ indent, P.alternatives indent [] []
  elif : ∀ {step body rest test inner others} indent, c.comparison step = .ok test → emitBlock c (indent + 1) body = .ok inner →
    P.block (indent + 1) body inner → P.alternatives indent rest others →
    P.alternatives indent (⟨step, body⟩ :: rest) (⟨indent, "elif " ++ test ++ ":", some step.line⟩ :: inner ++ others)
  absent : ∀ indent header, P.clause indent header none []
  present : ∀ {indent header step body inner}, P.block (indent + 1) body inner →
    P.clause indent header (some ⟨step, body⟩) (⟨indent, header, some step.line⟩ :: inner)

namespace Motive

variable {P : Motive} {c : Context} (kept : P.Kept c)
include kept

mutual

theorem emitted (indent : Nat) (s : Statement) (lines : List Line) (made : emit c indent s = .ok lines) :
    P.statement indent s lines := by
  cases s with
  | atomic step =>
    exact kept.atomic made
  | «break» step =>
    cases made
    exact kept.break indent step
  | «continue» step =>
    cases made
    exact kept.continue indent step
  | «return» step =>
    cases made
    exact kept.return indent step
  | branch gate step body alternatives otherwise closing =>
    obtain ⟨header, headerMade, made⟩ := bind_ok made
    obtain ⟨inner, bodyMade, made⟩ := bind_ok made
    obtain ⟨middle, alternativesMade, made⟩ := bind_ok made
    obtain ⟨last, otherwiseMade, made⟩ := bind_ok made
    cases made
    exact kept.branch indent closing headerMade bodyMade alternativesMade (block_emitted (indent + 1) body inner bodyMade)
      (alternatives_emitted indent alternatives middle alternativesMade) (clause_emitted indent _ otherwise last otherwiseMade)
  | loop kind step body closing =>
    obtain ⟨header, headerMade, made⟩ := bind_ok made
    obtain ⟨inner, bodyMade, made⟩ := bind_ok made
    cases made
    exact kept.loop indent closing headerMade bodyMade (block_emitted (indent + 1) body inner bodyMade)
  | attempt step body handler final closing =>
    obtain ⟨inner, bodyMade, made⟩ := bind_ok made
    obtain ⟨caught, handlerMade, made⟩ := bind_ok made
    obtain ⟨last, finalMade, made⟩ := bind_ok made
    cases made
    exact kept.attempt indent step handler final closing bodyMade handlerMade (block_emitted (indent + 1) body inner bodyMade)
      (clause_emitted indent _ handler caught handlerMade) (clause_emitted indent _ final last finalMade)

theorem all_emitted (indent : Nat) (block : List Statement) (lines : List Line) (made : emitAll c indent block = .ok lines) :
    P.all indent block lines := by
  cases block with
  | nil =>
    cases made
    exact kept.nil indent
  | cons s rest =>
    obtain ⟨first, firstMade, made⟩ := bind_ok made
    obtain ⟨others, othersMade, made⟩ := bind_ok made
    cases made
    exact kept.cons firstMade (emitted indent s first firstMade) (all_emitted indent rest others othersMade)

theorem block_emitted (indent : Nat) (block : List Statement) (lines : List Line) (made : emitBlock c indent block = .ok lines) :
    P.block indent block lines := by
  cases block with
  | nil =>
    cases made
    exact kept.empty indent
  | cons s rest =>
    obtain ⟨first, firstMade, made⟩ := bind_ok made
    obtain ⟨others, othersMade, made⟩ := bind_ok made
    cases made
    exact kept.filled (kept.cons firstMade (emitted indent s first firstMade) (all_emitted indent rest others othersMade))

theorem alternatives_emitted (indent : Nat) (clauses : List Clause) (lines : List Line)
    (made : emitAlternatives c indent clauses = .ok lines) : P.alternatives indent clauses lines := by
  cases clauses with
  | nil =>
    cases made
    exact kept.done indent
  | cons clause rest =>
    obtain ⟨step, body⟩ := clause
    obtain ⟨test, testMade, made⟩ := bind_ok made
    obtain ⟨inner, bodyMade, made⟩ := bind_ok made
    obtain ⟨others, othersMade, made⟩ := bind_ok made
    cases made
    exact kept.elif indent testMade bodyMade (block_emitted (indent + 1) body inner bodyMade)
      (alternatives_emitted indent rest others othersMade)

theorem clause_emitted (indent : Nat) (header : String) (clause : Option Clause) (lines : List Line)
    (made : emitClause c indent header clause = .ok lines) : P.clause indent header clause lines := by
  cases clause with
  | none =>
    cases made
    exact kept.absent indent header
  | some clause =>
    obtain ⟨step, body⟩ := clause
    obtain ⟨inner, bodyMade, made⟩ := bind_ok made
    cases made
    exact kept.present (block_emitted (indent + 1) body inner bodyMade)

end

end Motive

end Flowstep.Code
