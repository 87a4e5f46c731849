import Flowstep.Proofs.Headers

/-!
The program of a flow is read as the script that the flow stands for, by one induction over the blocks of the flow.
-/
namespace Flowstep.Code

open Text (Plain)
open Flowstep.Flow (Step Statement Clause Variable)
open Script (Stmt Suite Spells Written WrittenArms WrittenHandler WrittenFinal)

variable {lines : List Line}

theorem written_present {level line next : Nat} {stmts : List Stmt} (written : Written level lines line next stmts)
    (higher : line < next) : lines ≠ [] := by
  rintro rfl
  obtain ⟨nodes, forms, _, tall⟩ := written
  match nodes, forms, tall with
  | [], _, tall =>
    rw [Script.forestHeight] at tall
    omega
  | .node row inner :: rest, forms, _ => simp [Script.Forms, Script.forestRows, Script.Node.rows] at forms

variable (c : Context) (level : Nat) (params : List Variable) (v : Variable) (line : Nat)

theorem span_pos (s : Statement) : 0 < span c s := by
  cases s with
  | atomic step =>
    rw [span, Context.callSpan, Context.retrySpan]
    split <;> omega
  | «break» _ | «continue» _ | «return» _ =>
    exact Nat.one_pos
  | branch _ _ _ _ _ _ | loop _ _ _ _ | attempt _ _ _ _ _ =>
    rw [span]
    omega

theorem block_span_pos (block : List Statement) : 0 < blockSpan c block := by
  cases block with
  | nil =>
    exact Nat.one_pos
  | cons s rest =>
    have first := span_pos c s
    rw [blockSpan]
    omega

theorem written_pass (origin : Option Nat) : Written level [⟨level, "pass", origin⟩] line (line + 1) [⟨line, .pass⟩] :=
  Script.written_word level line "pass" origin .pass (by simp [Script.Parser.wordStatements])

theorem written_closer (closing : Option Step) :
    Written level (closerLine level closing) line (line + closing.toList.length) (closerStmts line closing) := by
  cases closing with
  | none => exact Script.written_nil level line
  | some s => exact written_pass level line _

def BlockWritten (c : Context) (level : Nat) (body : List Statement) (lines : List Line) : Prop :=
  ∀ line, Written level lines line (line + blockSpan c body) (translateBlock c line body)

variable {c : Context}

theorem block_present {level : Nat} {body : List Statement} (block : BlockWritten c level body lines) : lines ≠ [] :=
  written_present (block 0) (by have := block_span_pos c body; omega)

def ClauseWritten (c : Context) (level : Nat) (header : String) (lines : List Line) : Option Clause → Prop
  | none => lines = []
  | some found => ∃ inner, lines = ⟨level, header, some found.step.line⟩ :: inner ∧ BlockWritten c (level + 1) found.body inner

theorem written_otherwise (c : Context) (level line : Nat) (otherwise : Option Clause) (lines : List Line)
    (clause : ClauseWritten c level "else:" lines otherwise) :
    WrittenArms level lines line (line + clauseSpan c otherwise) [] (translateSuite c line otherwise) := by
  cases otherwise with
  | none =>
    cases clause
    exact Script.written_no_arms level line
  | some found =>
    obtain ⟨step, body⟩ := found
    obtain ⟨inner, rfl, block⟩ := clause
    have written := block (line + 1)
    rw [Nat.add_assoc] at written
    exact Script.written_else (block_present block) written

theorem written_handler (c : Context) (level line : Nat) (handler : Option Clause) (lines : List Line)
    (clause : ClauseWritten c level "except Exception as __error__:" lines handler) :
    WrittenHandler level lines line (line + clauseSpan c handler) (translateHandler c line handler) := by
  cases handler with
  | none =>
    cases clause
    exact Script.written_no_handler level line
  | some found =>
    obtain ⟨step, body⟩ := found
    obtain ⟨inner, rfl, block⟩ := clause
    have written := block (line + 1)
    rw [Nat.add_assoc] at written
    exact Script.written_except level line _ "__error__" _ inner _ (by decide) (block_present block) written

theorem written_finals (c : Context) (level line : Nat) (handler final : Option Clause) (lines : List Line)
    (clause : ClauseWritten c level "finally:" lines final) :
    WrittenFinal level (lines ++ missingClause level handler final) line
      (line + (clauseSpan c final + if handler.isNone && final.isNone then 2 else 0))
      (if handler.isNone && final.isNone then some ⟨line, [⟨line + 1, .pass⟩]⟩ else translateSuite c line final) := by
  cases final with
  | none =>
    cases clause
    cases handler with
    | none =>
      exact Script.written_finally none (by simp)
        (written_pass (level + 1) (line + 1) none)
    | some _ => exact Script.written_no_final level line
  | some found =>
    obtain ⟨step, body⟩ := found
    obtain ⟨inner, rfl, block⟩ := clause
    have written := block (line + 1)
    rw [Nat.add_assoc] at written
    have nothing : missingClause level handler (some ⟨step, body⟩) = [] := by cases handler <;> rfl
    rw [nothing, List.append_nil]
    simp only [Option.isNone_some, Bool.and_false]
    exact Script.written_finally _ (block_present block) written

theorem clauses_present (c : Context) (first last : Nat) (handler final : Option Clause) (made : Suite) :
    ((translateHandler c first handler).isNone &&
      (if handler.isNone && final.isNone then some made else translateSuite c last final).isNone) = false := by
  match handler, final with
  | some ⟨_, _⟩, _ => rw [translateHandler, Option.isNone_some, Bool.false_and]
  | none, some ⟨_, _⟩ => simp [translateSuite]
  | none, none => rfl

def ReadableUses (c : Context) (uses : List Use) : Prop := ∀ u ∈ uses, u.Readable c

theorem readable_append {first second : List Use} (reads : ReadableUses c (first ++ second)) :
    ReadableUses c first ∧ ReadableUses c second := List.forall_mem_append.mp reads

theorem readable_cons {u : Use} {uses : List Use} (reads : ReadableUses c (u :: uses)) :
    u.Readable c ∧ ReadableUses c uses := List.forall_mem_cons.mp reads

def writtenMotive (c : Context) : Motive where
  statement level s lines := ReadableUses c (statementUses s) → ∀ line, Written level lines line (line + span c s) (translate c line s)
  all level block lines := ReadableUses c (blockUses block) →
    ∀ line, Written level lines line (line + allSpan c block) (translateAll c line block)
  block level body lines := ReadableUses c (blockUses body) → BlockWritten c level body lines
  alternatives level clauses lines := ReadableUses c (clausesUses clauses) → ∀ line next others otherwise,
    WrittenArms level others (line + alternativesSpan c clauses) next [] otherwise →
      WrittenArms level (lines ++ others) line next (translateAlternatives c line clauses) otherwise
  clause level header clause lines := ReadableUses c (clauseUses clause) → ClauseWritten c level header lines clause

theorem written_kept (c : Context) : (writtenMotive c).Kept c where
  atomic made reads line := by
    exact Context.written_call_lines c _ _ line _ made (readable_cons reads).1
  «break» level step _ line := by
    exact Script.written_word level line _ _ _ (by simp [Script.Parser.wordStatements])
  «continue» level step _ line := by
    exact Script.written_word level line _ _ _ (by simp [Script.Parser.wordStatements])
  «return» level step _ line := by
    exact Script.written_word level line _ _ _ (by simp [Script.Parser.wordStatements])
  branch level closing header _ _ body alternatives otherwise reads line := by
    obtain ⟨opener, reads⟩ := readable_cons reads
    obtain ⟨reads, readableLast⟩ := readable_append reads
    obtain ⟨readableBody, readableMiddle⟩ := readable_append reads
    have block := body readableBody
    have chooses := Context.written_branch c _ _ level line _ _ _ _ _ _ _ _ header opener (block_present block) (block _)
      (alternatives readableMiddle _ _ _ _ (written_otherwise c level _ _ _ (otherwise readableLast)))
    have whole := Script.written_append level line _ _ _ _ _ _ chooses (written_closer level _ closing)
    rw [span, translate]
    simp only [List.append_assoc, Nat.add_assoc] at whole ⊢
    exact whole
  loop level closing header _ body reads line := by
    obtain ⟨opener, readableBody⟩ := readable_cons reads
    have block := body readableBody
    have repeats := Context.written_loop c _ _ level line _ _ _ _ header opener (block_present block) (block _)
    have whole := Script.written_append level line _ _ _ _ _ _ repeats (written_closer level _ closing)
    rw [span, translate]
    simp only [Nat.add_assoc] at whole ⊢
    exact whole
  attempt level step handler final closing _ _ body caught last reads line := by
    obtain ⟨reads, readableFinal⟩ := readable_append reads
    obtain ⟨readableBody, readableHandler⟩ := readable_append reads
    have block := body readableBody
    have tries := Script.written_try level line _ _ _ (some step.line) _ _ _ _ _ _ (block_present block) (block _)
      (written_handler c level _ handler _ (caught readableHandler))
      (written_finals c level _ handler final _ (last readableFinal)) (clauses_present c _ _ handler final _)
    have whole := Script.written_append level line _ _ _ _ _ _ tries (written_closer level _ closing)
    rw [span, translate]
    simp only [List.append_assoc, Nat.add_assoc] at whole ⊢
    exact whole
  nil level _ line := by
    exact Script.written_nil level line
  cons _ first others reads line := by
    obtain ⟨readableFirst, readableOthers⟩ := readable_append reads
    rw [allSpan, ← Nat.add_assoc]
    exact Script.written_append _ line _ _ _ _ _ _ (first readableFirst line) (others readableOthers _)
  empty level _ line := by
    exact written_pass level line none
  filled all reads line := by
    have written := all reads line
    exact written
  done level _ line next others otherwise rest := by
    exact rest
  elif level test _ body more reads line next others otherwise rest := by
    obtain ⟨opener, reads⟩ := readable_cons reads
    obtain ⟨readableBody, readableMore⟩ := readable_append reads
    have block := body readableBody
    have plain := (comparison_plain c _ _ test).mpr (raw_arguments_plain _ opener.inputs)
    have spells := Context.spells_comparison c _ _ test (Use.readable_inputs opener) opener.line
    have flat := Context.plain_between "elif " _ ":" (by decide) plain (by decide)
    rw [alternativesSpan, ← Nat.add_assoc, ← Nat.add_assoc] at rest
    rw [List.append_assoc]
    exact Script.written_elif level line (line + 1) _ next _ _ _ _ _ _ _ _
      (Script.spells_loose spells) (Script.ends_plain line _ flat)
      (block_present block) (block _) (more readableMore _ next others otherwise rest)
  absent _ _ _ := rfl
  present body reads := by
    exact ⟨_, rfl, body reads⟩

theorem load_text_call : loadText v = v.name ++ " = " ++ (Text.joinWith "." ["args", "get"] ++ "(" ++
    Text.joinWith ", " [quote v.name, (Operand.ofDefault v).code] ++ ")") := by
  have front : " = args.get(" = " = " ++ (Text.joinWith "." ["args", "get"] ++ "(") := by decide
  have listed : Text.joinWith ", " [quote v.name, (Operand.ofDefault v).code] =
    quote v.name ++ (", " ++ (Operand.ofDefault v).code) := String.append_assoc
  unfold loadText
  rw [front, listed]
  simp only [String.append_assoc]

theorem written_load (reads : readableVariable v) : Written 1 [⟨1, loadText v, none⟩] line (line + 1)
      [⟨line, .assign [.name v.name] (.call (.attr (.name "args") "get") [textExpr v.name, defaultExpr v] [])⟩] := by
  rw [readableVariable, namedVariable, Bool.and_eq_true, Bool.and_eq_true, List.all_eq_true, List.all_eq_true] at reads
  obtain ⟨⟨name, named⟩, literals⟩ := reads
  have quoted : Spells 1 0 (quote v.name) (textExpr v.name) :=
    Script.spells_loose (Script.spells_quote v.name)
  have default : Spells 1 0 (Operand.ofDefault v).code (defaultExpr v) := spells_operand named literals
  have gets := Script.spells_call (Script.spells_path ["args", "get"] (by simp) (by decide))
    [(quote v.name, textExpr v.name), ((Operand.ofDefault v).code, defaultExpr v)] [] (by simpa using ⟨quoted, default⟩) (by simp)
  have plain : Plain (loadText v) := (load_text_plain v).mpr
    ((all_plain_cons _ _).mpr ⟨Script.identifier_plain _ name, raw_fragments_plain named⟩)
  have ends := Script.ends_plain line _ plain
  rw [load_text_call] at ends ⊢
  exact Script.written_assign_one 1 line _ v.name _ _ none _ ends (Script.binds_name _ name)
    (Script.spells_denotes gets (by decide))

theorem written_loads (reads : ∀ v ∈ params, readableVariable v) :
    Written 1 (params.map fun v => ⟨1, loadText v, none⟩) line (line + params.length) (loadStmts line params) := by
  induction params generalizing line with
  | nil => exact Script.written_nil 1 line
  | cons v rest ih =>
    have first := written_load v line (reads v List.mem_cons_self)
    have others := ih (line + 1) fun w member => reads w (List.mem_cons_of_mem _ member)
    rw [List.length_cons, Nat.add_comm rest.length 1, ← Nat.add_assoc]
    exact Script.written_append 1 line _ _ _ _ _ _ first others

theorem written_write_back (reads : readableVariable v) : Written 2 [⟨2, writeBackText v, none⟩] line (line + 1)
      [⟨line, .assign [.index (.name "args") (textExpr v.name)] (.name v.name)⟩] := by
  rw [readableVariable, namedVariable, Bool.and_eq_true, Bool.and_eq_true] at reads
  have name := reads.1.1
  have quoted : Spells 1 0 (quote v.name) (textExpr v.name) :=
    Script.spells_loose (Script.spells_quote v.name)
  have entry := Script.spells_index (Script.spells_word "args" (by decide)) quoted
  have value : Spells 0 7 v.name (.name v.name) := Script.spells_word v.name name
  have ends := Script.ends_plain line _ (write_back_plain v (Script.identifier_plain _ name))
  have text : writeBackText v = "args" ++ "[" ++ quote v.name ++ "]" ++ " = " ++ v.name := by
    have front : "args[" = "args" ++ "[" := by decide
    have back : "] = " = "]" ++ " = " := by decide
    unfold writeBackText
    rw [front, back]
    simp only [String.append_assoc]
  rw [text] at ends ⊢
  exact Script.written_assign_one 2 line _ _ (.index (.name "args") (textExpr v.name)) v.name none _ ends
    entry (Script.spells_denotes value (by decide))

theorem written_write_backs (reads : ∀ v ∈ params, readableVariable v) :
    Written 2 (params.map fun v => ⟨2, writeBackText v, none⟩) line (line + params.length) (writeBackStmts line params) := by
  induction params generalizing line with
  | nil => exact Script.written_nil 2 line
  | cons v rest ih =>
    have first := written_write_back v line (reads v List.mem_cons_self)
    have others := ih (line + 1) fun w member => reads w (List.mem_cons_of_mem _ member)
    rw [List.length_cons, Nat.add_comm rest.length 1, ← Nat.add_assoc]
    exact Script.written_append 2 line _ _ _ _ _ _ first others

theorem written_program {c : Context} {params : List Variable} {statements : List Statement} {lines : List Line}
    (made : program c params statements = .ok lines)
    (reads : ReadableUses c (blockUses statements)) (declared : ∀ v ∈ params, readableVariable v) :
    Written 0 lines 1 (2 + params.length + 2 + allSpan c statements + 2 + (outputs params).length)
      (translateProgram c params statements).body := by
  obtain ⟨flow, flowMade, made⟩ := bind_ok made
  cases made
  have loaded := written_loads params 2 declared
  have body := Script.written_append 2 (2 + params.length + 1) _ _ _ _ _ _ (written_pass 2 _ none)
    ((writtenMotive c).all_emitted (written_kept c) 2 statements flow flowMade reads _)
  have backs := Script.written_append 2 (2 + params.length + 2 + allSpan c statements + 1) _ _ _ _ _ _
    (written_pass 2 _ none) (written_write_backs (outputs params) (2 + params.length + 2 + allSpan c statements + 2)
      fun v member => declared v (List.mem_of_mem_filter member))
  have final := Script.written_finally none (by simp) backs
  have tries := Script.written_try 1 (2 + params.length) _ _ _ none _ [] _ _ none _ (by simp) body
    (Script.written_no_handler 1 _) final (by simp)
  have whole := Script.written_main none (by simp) (Script.written_append 1 2 _ _ _ _ _ _ loaded tries)
  simp only [List.append_assoc] at whole ⊢
  exact whole

end Flowstep.Code
