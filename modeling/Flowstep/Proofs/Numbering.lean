import Flowstep.Proofs.Meaning

/-!
The lines that a script carries are those of its text: its headers are numbered without a gap, as many as there are
lines of code.
-/
namespace Flowstep.Script

mutual

-- The headers of a statement stand on consecutive lines, the first on `line` and the last before `next`.
def Stmt.Numbered (line next : Nat) : Stmt → Prop
  | ⟨own, kind⟩ => own = line ∧ kind.Numbered line next

-- The first clause of a choice and a function begin on the line of their statement.
def StmtKind.Numbered (line next : Nat) : StmtKind → Prop
  | .pass | .expr _ | .assign _ _ | .augAssign _ _ _ | .break | .continue | .return _ | .raise _ | .load _ =>
    next = line + 1
  | .ifChain arms otherwise => ∃ last, armsNumbered line last arms ∧ suiteNumbered last next otherwise
  | .whileLoop _ body | .forLoop _ _ body => blockNumbered (line + 1) next body
  | .tryBlock body handler final => ∃ middle last, blockNumbered (line + 1) middle body ∧
    handlerNumbered middle last handler ∧ suiteNumbered last next final
  | .define ⟨_, _, body, own⟩ => own = line ∧ blockNumbered (line + 1) next body

def blockNumbered (line next : Nat) : List Stmt → Prop
  | [] => next = line
  | s :: rest => ∃ middle, s.Numbered line middle ∧ blockNumbered middle next rest

def armsNumbered (line next : Nat) : List Arm → Prop
  | [] => next = line
  | ⟨own, _, body⟩ :: rest => own = line ∧ ∃ middle, blockNumbered (line + 1) middle body ∧ armsNumbered middle next rest

def suiteNumbered (line next : Nat) : Option Suite → Prop
  | none => next = line
  | some ⟨own, body⟩ => own = line ∧ blockNumbered (line + 1) next body

def handlerNumbered (line next : Nat) : Option Handler → Prop
  | none => next = line
  | some ⟨own, _, body⟩ => own = line ∧ blockNumbered (line + 1) next body

end

attribute [simp] Stmt.Numbered StmtKind.Numbered blockNumbered armsNumbered suiteNumbered handlerNumbered

theorem numbered_append {middle next : Nat} (line : Nat) {front : List Stmt} {back : List Stmt} (first : blockNumbered line middle front)
    (second : blockNumbered middle next back) : blockNumbered line next (front ++ back) := by
  induction front generalizing line with
  | nil =>
    exact first ▸ second
  | cons s rest ih =>
    obtain ⟨between, here, others⟩ := first
    exact ⟨between, here, ih between others⟩

theorem numbered_single (line next : Nat) (kind : StmtKind) (numbered : kind.Numbered line next) :
    blockNumbered line next [⟨line, kind⟩] := by
  simpa using numbered

variable {body : List Stmt}

theorem choice_numbered {line middle last next : Nat} (test : Expr) {further : List Arm} {otherwise : Option Suite}
    (inner : blockNumbered (line + 1) middle body) (arms : armsNumbered middle last further)
    (suite : suiteNumbered last next otherwise) :
    (StmtKind.ifChain (⟨line, test, body⟩ :: further) otherwise).Numbered line next := by
  refine ⟨last, ?_, suite⟩
  exact ⟨rfl, middle, inner, arms⟩

theorem attempt_numbered {line : Nat} {middle last next : Nat} {handler : Option Handler} {final : Option Suite}
    (inner : blockNumbered (line + 1) middle body) (caught : handlerNumbered middle last handler)
    (suite : suiteNumbered last next final) : (StmtKind.tryBlock body handler final).Numbered line next := by
  exact ⟨middle, last, inner, caught, suite⟩

theorem suite_of_block {line next : Nat} (inner : blockNumbered (line + 1) next body) :
    suiteNumbered line next (some ⟨line, body⟩) := by
  exact ⟨rfl, inner⟩

theorem pass_numbered (line : Nat) : blockNumbered line (line + 1) [⟨line, .pass⟩] :=
  numbered_single line _ _ (by rw [StmtKind.Numbered])

end Flowstep.Script

namespace Flowstep.Code

open Flowstep.Flow (Step Statement Clause Gate LoopKind Variable ParamError)
open Script (Stmt StmtKind Suite Handler Arm blockNumbered armsNumbered suiteNumbered handlerNumbered
  numbered_append numbered_single choice_numbered attempt_numbered pass_numbered
  suite_of_block)

namespace Context

variable (c : Context) (s : Step) (line : Nat)

theorem retry_numbered {attempt : StmtKind} (simple : attempt.Numbered (line + 4) (line + 5)) :
    blockNumbered line (line + retrySpan s) (c.retryStmts s line (line + 5) attempt) := by
  unfold retryStmts retryHandler lastFailure retrySpan
  split <;> simp [simple]

theorem call_kind_numbered : (c.callKind s).Numbered line (line + 1) := by
  unfold callKind
  split <;> rw [StmtKind.Numbered]

theorem call_numbered : blockNumbered line (line + c.callSpan s) (c.callStmts s line) := by
  unfold callSpan callStmts
  split
  · exact retry_numbered c s line (call_kind_numbered c s (line + 4))
  · exact numbered_single line _ _ (call_kind_numbered c s line)

theorem before_numbered {name : String} : blockNumbered line (line + c.beforeSpan s) (c.beforeBlock s name line) := by
  unfold beforeSpan beforeBlock
  split
  · exact retry_numbered c s line (by rw [StmtKind.Numbered])
  · rw [blockNumbered, Nat.add_zero]

theorem gate_numbered (gate : Gate) (s : Step) (line : Nat) :
    blockNumbered line (line + c.gateSpan gate s) (c.gateStmts gate s line) := by
  cases gate with
  | call => exact before_numbered c s line
  | comparison => simp [gateSpan, gateStmts]

theorem loop_numbered (kind : LoopKind) (s : Step) (line : Nat) :
    blockNumbered line (line + c.loopSpan kind s) (c.loopStmts kind s line) := by
  cases kind with
  | call => exact before_numbered c s line
  | _ => simp [loopSpan, loopStmts]

theorem loop_kind_numbered (kind : LoopKind) (s : Step) (line next : Nat) (body : List Stmt)
    (numbered : blockNumbered (line + 1) next body) : (c.loopKind kind s body).Numbered line next := by
  cases kind with
  | list | map =>
    unfold loopKind
    dsimp only
    split <;> rw [StmtKind.Numbered] <;> exact numbered
  | _ =>
    exact numbered

end Context

theorem closer_numbered {line : Nat} (closing : Option Step) :
    blockNumbered line (line + closing.toList.length) (closerStmts line closing) := by
  cases closing with
  | none => simp [closerStmts]
  | some s => exact pass_numbered line

variable (c : Context) (params : List Variable) (line : Nat)

theorem final_numbered (handler final : Option Clause)
    (suite : suiteNumbered line (line + clauseSpan c final) (translateSuite c line final)) :
    suiteNumbered line (line + (clauseSpan c final + if handler.isNone && final.isNone then 2 else 0))
      (if handler.isNone && final.isNone then some ⟨line, [⟨line + 1, .pass⟩]⟩ else translateSuite c line final) := by
  match handler, final with
  | none, none =>
    exact suite_of_block (pass_numbered (line + 1))
  | some _, none => simpa using suite
  | _, some _ => simpa using suite

mutual

theorem translate_numbered (c : Context) (line : Nat) (s : Statement) :
    blockNumbered line (line + span c s) (translate c line s) := by
  cases s with
  | atomic step =>
    exact c.call_numbered step line
  | «break» _ | «continue» _ | «return» _ =>
    rw [span]
    exact numbered_single line _ _ (by rw [StmtKind.Numbered])
  | branch gate step body alternatives otherwise closing =>
    rw [span, translate]
    have before := c.gate_numbered gate step line
    have chooses := numbered_single _ _ _ (choice_numbered (c.gateExpr gate step)
      (block_numbered c (line + c.gateSpan gate step + 1) body) (alternatives_numbered c alternatives)
      (suite_numbered c _ otherwise))
    have whole := numbered_append _ (numbered_append _ before chooses) (closer_numbered closing)
    simp only [Nat.add_assoc] at whole ⊢
    exact whole
  | loop kind step body closing =>
    rw [span, translate]
    have before := c.loop_numbered kind step line
    have repeats := numbered_single _ _ _
      (c.loop_kind_numbered kind step _ _ _ (block_numbered c (line + c.loopSpan kind step + 1) body))
    have whole := numbered_append _ (numbered_append _ before repeats) (closer_numbered closing)
    simp only [Nat.add_assoc] at whole ⊢
    exact whole
  | attempt step body handler final closing =>
    rw [span, translate]
    have finishes := final_numbered c (line + 1 + blockSpan c body + clauseSpan c handler) handler final
      (suite_numbered c _ final)
    have tries := numbered_single _ _ _ (attempt_numbered (block_numbered c (line + 1) body)
      (handler_numbered c handler) finishes)
    have whole := numbered_append _ tries (closer_numbered closing)
    simp only [Nat.add_assoc] at whole ⊢
    exact whole

theorem all_numbered (c : Context) (line : Nat) (block : List Statement) :
    blockNumbered line (line + allSpan c block) (translateAll c line block) := by
  cases block with
  | nil => simp [allSpan, translateAll]
  | cons s rest =>
    rw [allSpan, ← Nat.add_assoc]
    exact numbered_append _ (translate_numbered c line s) (all_numbered c _ rest)

theorem block_numbered (c : Context) (line : Nat) (block : List Statement) :
    blockNumbered line (line + blockSpan c block) (translateBlock c line block) := by
  cases block with
  | nil =>
    exact pass_numbered line
  | cons s rest =>
    rw [blockSpan, ← Nat.add_assoc]
    exact numbered_append _ (translate_numbered c line s) (all_numbered c _ rest)

theorem alternatives_numbered (c : Context) {line : Nat} (clauses : List Clause) :
    armsNumbered line (line + alternativesSpan c clauses) (translateAlternatives c line clauses) := by
  cases clauses with
  | nil => simp [alternativesSpan, translateAlternatives]
  | cons clause rest =>
    obtain ⟨step, body⟩ := clause
    rw [alternativesSpan, ← Nat.add_assoc, ← Nat.add_assoc]
    exact ⟨rfl, _, block_numbered c (line + 1) body, alternatives_numbered c rest⟩

theorem suite_numbered (c : Context) (line : Nat) (clause : Option Clause) :
    suiteNumbered line (line + clauseSpan c clause) (translateSuite c line clause) := by
  cases clause with
  | none => simp [clauseSpan, translateSuite]
  | some clause =>
    obtain ⟨step, body⟩ := clause
    rw [clauseSpan, ← Nat.add_assoc]
    exact suite_of_block (block_numbered c (line + 1) body)

theorem handler_numbered (c : Context) {line : Nat} (clause : Option Clause) :
    handlerNumbered line (line + clauseSpan c clause) (translateHandler c line clause) := by
  cases clause with
  | none => simp [clauseSpan, translateHandler]
  | some clause =>
    obtain ⟨step, body⟩ := clause
    rw [clauseSpan, ← Nat.add_assoc]
    exact ⟨rfl, block_numbered c (line + 1) body⟩

end

theorem load_numbered : blockNumbered line (line + params.length) (loadStmts line params) := by
  induction params generalizing line with
  | nil => simp [loadStmts]
  | cons v rest ih =>
    have first := numbered_single line (line + 1)
      (.assign [.name v.name] (.call (.attr (.name "args") "get") [textExpr v.name, defaultExpr v] []))
      (by rw [StmtKind.Numbered])
    have whole := numbered_append _ first (ih (line + 1))
    rw [List.length_cons, Nat.add_comm rest.length 1, ← Nat.add_assoc]
    exact whole

theorem write_back_numbered : blockNumbered line (line + params.length) (writeBackStmts line params) := by
  induction params generalizing line with
  | nil => simp [writeBackStmts]
  | cons v rest ih =>
    have first := numbered_single line (line + 1)
      (.assign [.index (.name "args") (textExpr v.name)] (.name v.name)) (by rw [StmtKind.Numbered])
    have whole := numbered_append _ first (ih (line + 1))
    rw [List.length_cons, Nat.add_comm rest.length 1, ← Nat.add_assoc]
    exact whole

theorem program_numbered (statements : List Statement) :
    blockNumbered 1 (2 + params.length + 2 + allSpan c statements + 2 + (outputs params).length)
      (translateProgram c params statements).body := by
  have flow := numbered_append _ (pass_numbered (2 + params.length + 1))
    (all_numbered c (2 + params.length + 2) statements)
  have final := suite_of_block (numbered_append _
    (pass_numbered _) (write_back_numbered (outputs params) (2 + params.length + 2 + allSpan c statements + 2)))
  have tries := numbered_single _ _ _ (attempt_numbered flow
    (by rw [handlerNumbered]) final)
  refine numbered_single 1 _ _ ?_
  exact ⟨rfl, numbered_append _ (load_numbered params 2) tries⟩

namespace Context

variable (c : Context) (s : Step) (indent : Nat)

theorem retry_length (statement : String) : (c.retryLines s indent statement).length = retrySpan s := by
  unfold retryLines retrySpan
  split <;> rfl

theorem call_lines_length (lines : List Line) (made : c.callLines s indent = .ok lines) : lines.length = c.callSpan s := by
  obtain ⟨call, _, made⟩ := bind_ok made
  unfold callSpan
  by_cases again : c.retries s
  · rw [if_pos again] at made ⊢
    cases made
    exact c.retry_length s indent _
  · rw [if_neg again] at made ⊢
    cases made
    rfl

theorem header_lines_length (name : String) (header : String → String)
    (lines : List Line) (made : c.headerLines s indent name header = .ok lines) : lines.length = c.beforeSpan s + 1 := by
  obtain ⟨call, _, made⟩ := bind_ok made
  unfold beforeSpan
  by_cases again : c.retries s
  · rw [if_pos again] at made ⊢
    cases made
    rw [List.length_append, c.retry_length s indent _]
    rfl
  · rw [if_neg again] at made ⊢
    cases made
    rfl

theorem branch_lines_length (gate : Gate) (s : Step) (indent : Nat) (lines : List Line)
    (made : c.branchLines gate s indent = .ok lines) : lines.length = c.gateSpan gate s + 1 := by
  cases gate with
  | call => exact c.header_lines_length s indent _ _ lines made
  | comparison =>
    obtain ⟨test, _, made⟩ := bind_ok made
    cases made
    rfl

theorem loop_lines_length (kind : LoopKind) (s : Step) (indent : Nat) (lines : List Line)
    (made : c.loopLines kind s indent = .ok lines) : lines.length = c.loopSpan kind s + 1 := by
  cases kind with
  | call => exact c.header_lines_length s indent _ _ lines made
  | _ =>
    obtain ⟨header, _, made⟩ := bind_ok made
    cases made
    rfl

end Context

theorem missing_clause_length (indent : Nat) (handler final : Option Clause) :
    (missingClause indent handler final).length = if handler.isNone && final.isNone then 2 else 0 := by
  cases handler <;> cases final <;> rfl

theorem closer_line_length (indent : Nat) (closing : Option Step) :
    (closerLine indent closing).length = closing.toList.length := List.length_map _

def lengthMotive (c : Context) : Motive where
  statement _ s lines := lines.length = span c s
  all _ block lines := lines.length = allSpan c block
  block _ block lines := lines.length = blockSpan c block
  alternatives _ clauses lines := lines.length = alternativesSpan c clauses
  clause _ _ clause lines := lines.length = clauseSpan c clause

theorem length_kept : (lengthMotive c).Kept c where
  atomic made := (c.call_lines_length _ _ _ made).trans (by rw [span])
  «break» _ _ := by simp [lengthMotive, span]
  «continue» _ _ := by simp [lengthMotive, span]
  «return» _ _ := by simp [lengthMotive, span]
  branch indent closing header _ _ body alternatives otherwise := by
    dsimp only [lengthMotive] at *
    simp only [List.length_append, span, closer_line_length, c.branch_lines_length _ _ _ _ header, body, alternatives, otherwise]
  loop indent closing header _ body := by
    dsimp only [lengthMotive] at *
    simp only [List.length_append, span, closer_line_length, c.loop_lines_length _ _ _ _ header, body]
  attempt indent step _ _ closing _ _ body handler final := by
    dsimp only [lengthMotive] at *
    simp only [List.length_append, List.length_cons, span, closer_line_length, missing_clause_length, body, handler, final,
      Nat.add_comm 1]
  nil _ := by simp [lengthMotive, allSpan]
  cons _ first others := by
    dsimp only [lengthMotive] at *
    rw [List.length_append, allSpan, first, others]
  empty _ := by simp [lengthMotive, blockSpan]
  filled all := by
    dsimp only [lengthMotive] at *
    rw [all, allSpan, blockSpan]
  done _ := by simp [lengthMotive, alternativesSpan]
  elif _ _ _ body others := by
    dsimp only [lengthMotive] at *
    rw [List.length_append, List.length_cons, alternativesSpan, body, others, Nat.add_comm (blockSpan c _) 1]
  absent _ _ := by simp [lengthMotive, clauseSpan]
  present body := by
    dsimp only [lengthMotive] at *
    rw [List.length_cons, clauseSpan, body, Nat.add_comm]

variable {c : Context} {indent : Nat} {lines : List Line}

theorem emit_length {s : Statement} (made : emit c indent s = .ok lines) :
    lines.length = span c s := (lengthMotive c).emitted (length_kept c) indent s lines made

theorem emit_block_length {block : List Statement} (made : emitBlock c indent block = .ok lines) :
    lines.length = blockSpan c block :=
  (lengthMotive c).block_emitted (length_kept c) indent block lines made

theorem emit_alternatives_length {clauses : List Clause} (made : emitAlternatives c indent clauses = .ok lines) :
    lines.length = alternativesSpan c clauses :=
  (lengthMotive c).alternatives_emitted (length_kept c) indent clauses lines made

theorem emit_clause_length {header : String} {clause : Option Clause} (made : emitClause c indent header clause = .ok lines) :
    lines.length = clauseSpan c clause :=
  (lengthMotive c).clause_emitted (length_kept c) indent header clause lines made

theorem program_length {params : List Variable} {statements : List Statement}
    (made : program c params statements = .ok lines) :
    lines.length + 1 = 2 + params.length + 2 + allSpan c statements + 2 + (outputs params).length := by
  obtain ⟨flow, flowMade, made⟩ := bind_ok made
  cases made
  have body : flow.length = allSpan c statements := (lengthMotive c).all_emitted (length_kept c) 2 statements flow flowMade
  simp only [List.length_append, List.length_cons, List.length_map, List.length_nil]
  omega

end Flowstep.Code
