import Mathlib.Data.List.Range
import Flowstep.Project.Bundle
import Flowstep.Proofs.Emission
import Flowstep.Proofs.LineMapping
import Flowstep.Proofs.StepOrder

/-!
Every step of a flow owns one line of the program made from it, in the order of the flow.
-/
namespace Flowstep.Flow

def ownLines (window : Window) (entries : List StepEntry) : List Nat :=
  ((entries.zipIdx 1).filter fun e => !e.1.disabled && window.contains e.2 && !isGroupMark e.1.key).map Prod.snd

variable {window : Window} {entries : List StepEntry}

theorem own_lines_ascending : (ownLines window entries).Pairwise (· < ·) := by
  have all : ((entries.zipIdx 1).map Prod.snd).Pairwise (· < ·) := by
    rw [List.zipIdx_map_snd]
    exact List.pairwise_lt_range'
  exact List.Pairwise.sublist (List.filter_sublist.map Prod.snd) all

theorem own_lines_positive {line : Nat} (member : line ∈ ownLines window entries) : 0 < line := by
  obtain ⟨e, kept, same⟩ := List.mem_map.mp member
  subst same
  exact (List.mem_zipIdx (List.mem_of_mem_filter kept)).1

theorem step_of_entry {line : Nat} {e : StepEntry} {s : Step} (read : Step.ofEntry line e = .ok s) :
    s.line = line ∧ s.key = e.key := by
  obtain ⟨options, _, read⟩ := bind_ok read
  cases read
  exact ⟨rfl, rfl⟩

theorem steps_from_lines {window : Window} {entries : List StepEntry} (line : Nat) (steps : List Step)
    (read : stepsFrom window line entries = .ok steps) :
    (steps.filter fun s => !isGroupMark s.key).map (·.line) =
      ((entries.zipIdx line).filter fun e =>
        !e.1.disabled && window.contains e.2 && !isGroupMark e.1.key).map Prod.snd := by
  induction entries generalizing line steps with
  | nil =>
    cases read
    rfl
  | cons e rest ih =>
    by_cases dropped : e.disabled || !window.contains line
    · rw [stepsFrom, if_pos dropped] at read
      have out : (!e.disabled && window.contains line) = false := by
        simpa [imp_iff_not_or] using dropped
      simpa [out] using ih (line + 1) steps read
    · rw [stepsFrom, if_neg dropped] at read
      have kept : (!e.disabled && window.contains line) = true := by simpa using dropped
      obtain ⟨s, single, read⟩ := bind_ok read
      obtain ⟨others, more, read⟩ := bind_ok read
      cases read
      obtain ⟨lineEq, keyEq⟩ := step_of_entry single
      have tail := ih (line + 1) others more
      by_cases mark : isGroupMark e.key
      · simpa [keyEq, mark] using tail
      · simpa [keyEq, mark, kept, lineEq] using tail

end Flowstep.Flow

namespace Flowstep.Code

open Flowstep.Flow (Step Statement Clause Gate LoopKind ParamError Variable blockSteps clausesSteps clauseSteps)

def origins (lines : List Line) : List Nat := lines.filterMap (·.origin)

theorem origins_append (front back : List Line) : origins (front ++ back) = origins front ++ origins back :=
  List.filterMap_append

theorem origins_own (indent : Nat) (text : String) (line : Nat) (rest : List Line) :
    origins (⟨indent, text, some line⟩ :: rest) = line :: origins rest := rfl

theorem retry_lines_origins (c : Context) (s : Step) (indent : Nat) {statement : String} :
    origins (c.retryLines s indent statement) = [s.line] := by
  unfold Context.retryLines
  by_cases waits : 0 < s.options.retryInterval
  · simp [origins]
  · simp [origins]

variable {s : Step} {indent : Nat} {lines : List Line}

theorem call_lines_origins (c : Context) (made : c.callLines s indent = .ok lines) : origins lines = [s.line] := by
  obtain ⟨call, _, rest⟩ := bind_ok made
  by_cases again : c.retries s
  · rw [if_pos again] at rest
    cases rest
    exact retry_lines_origins c s indent
  · rw [if_neg again] at rest
    cases rest
    rfl

variable {c : Context}

theorem header_lines_origins {name : String} {header : String → String}
    (made : c.headerLines s indent name header = .ok lines) : origins lines = [s.line] := by
  obtain ⟨call, _, rest⟩ := bind_ok made
  by_cases again : c.retries s
  · rw [if_pos again] at rest
    cases rest
    rw [origins_append, retry_lines_origins]
    rfl
  · rw [if_neg again] at rest
    cases rest
    rfl

theorem branch_lines_origins {gate : Gate} (made : c.branchLines gate s indent = .ok lines) : origins lines = [s.line] := by
  cases gate with
  | call => exact header_lines_origins made
  | comparison =>
    obtain ⟨test, _, rest⟩ := bind_ok made
    cases rest
    rfl

theorem loop_lines_origins {kind : LoopKind} (made : c.loopLines kind s indent = .ok lines) : origins lines = [s.line] := by
  cases kind with
  | call => exact header_lines_origins made
  | «while» | range | list | map =>
    obtain ⟨header, _, rest⟩ := bind_ok made
    cases rest
    rfl

theorem closer_line_origins (indent : Nat) (closing : Option Step) :
    origins (closerLine indent closing) = closing.toList.map (·.line) := by
  cases closing <;> rfl

theorem missing_clause_origins (indent : Nat) (handler final : Option Clause) :
    origins (missingClause indent handler final) = [] := by
  cases handler <;> cases final <;> rfl

def originsMotive : Motive where
  statement _ s lines := origins lines = s.steps.map (·.line)
  all _ block lines := origins lines = (blockSteps block).map (·.line)
  block _ block lines := origins lines = (blockSteps block).map (·.line)
  alternatives _ clauses lines := origins lines = (clausesSteps clauses).map (·.line)
  clause _ _ clause lines := origins lines = (clauseSteps clause).map (·.line)

theorem origins_kept (c : Context) : originsMotive.Kept c where
  atomic := call_lines_origins c
  «break» _ _ := rfl
  «continue» _ _ := rfl
  «return» _ _ := rfl
  branch indent closing header _ _ body alternatives otherwise := by
    dsimp only [originsMotive] at *
    simp only [origins_append, Statement.steps, List.map_cons, List.map_append, List.cons_append, body, alternatives, otherwise,
      branch_lines_origins header, closer_line_origins, List.nil_append]
  loop indent closing header _ body := by
    dsimp only [originsMotive] at *
    simp only [origins_append, Statement.steps, List.map_cons, List.map_append, List.cons_append, body,
      loop_lines_origins header, closer_line_origins, List.nil_append]
  attempt indent step _ _ closing _ _ body handler final := by
    dsimp only [originsMotive] at *
    simp only [List.cons_append, origins_own, origins_append, Statement.steps, List.map_cons, List.map_append, body, handler,
      final, missing_clause_origins, closer_line_origins, List.append_nil]
  nil _ := rfl
  cons _ first others := by
    dsimp only [originsMotive] at *
    rw [origins_append, blockSteps, List.map_append, first, others]
  empty _ := rfl
  filled all := all
  done _ := rfl
  elif _ _ _ body others := by
    dsimp only [originsMotive] at *
    rw [origins_append, origins_own, clausesSteps, List.map_append, List.map_cons, body, others]
  absent _ _ := rfl
  present body := by
    dsimp only [originsMotive] at *
    rw [origins_own, clauseSteps, List.map_cons, body]

theorem origins_of_synthetic {α : Type} (f : α → Line) (synthetic : ∀ a, (f a).origin = none) (items : List α) :
    origins (items.map f) = [] := by
  induction items with
  | nil => rfl
  | cons a rest ih => simpa [origins, synthetic a] using ih

theorem program_origins {params : List Variable} {statements : List Statement}
    (made : program c params statements = .ok lines) :
    origins lines = (blockSteps statements).map (·.line) := by
  obtain ⟨flow, flowMade, made⟩ := bind_ok made
  cases made
  have loads := origins_of_synthetic (fun v => (⟨1, loadText v, none⟩ : Line)) (fun _ => rfl) params
  have writes := origins_of_synthetic (fun v => (⟨2, writeBackText v, none⟩ : Line)) (fun _ => rfl)
  have opener : origins (⟨0, "def main(args):", none⟩ :: params.map fun v => ⟨1, loadText v, none⟩) = [] :=
    loads
  have prologue : origins [⟨1, "try:", none⟩, ⟨2, "pass", none⟩] = [] := rfl
  have epilogue : origins [⟨1, "finally:", none⟩, ⟨2, "pass", none⟩] = [] := rfl
  rw [origins_append, origins_append, origins_append, origins_append, opener, prologue, epilogue, writes,
    (originsMotive.all_emitted (origins_kept c) 2 statements flow flowMade : origins flow = _)]
  simp

end Flowstep.Code

namespace Flowstep.Project

open Code (LineMap Line origins)
open Flowstep.Flow (Window ownLines)

def unitWindow (settings : Settings) (isEntry : Bool) : Window := if isEntry then settings.window else {}

variable {settings : Settings} {tables : Flow.Tables} {globals : List String} {isEntry : Bool} {stem : String}
  {u : UnitEntry} {code : UnitCode} {calls : List Flow.Step}

theorem build_parts {d : Document} {b : Bundle} (built : d.build settings tables = .ok b) :
    entryOf settings d.units = .ok b.entry ∧
      buildUnits settings tables (d.globals.map (·.name)) b.entry 0 0 ∅ ∅ d.units = .ok (b.units, b.titles) ∧
      b.requirements = distinctPackages (d.requirements ++ d.components.flatMap (·.requirements)) ∧
      b.globals = .ofList (d.globals.map fun v => (v.name, (Code.Operand.ofDefault v).code)) := by
  unfold Document.build at built
  split at built
  · cases built
  obtain ⟨entry, chosen, built⟩ := bind_ok built
  obtain ⟨⟨units, titles⟩, unitsBuilt, built⟩ := bind_ok built
  cases built
  exact ⟨chosen, unitsBuilt, rfl, rfl⟩

theorem flow_steps {window : Window} {entries : List Flow.StepEntry} {statements : List Flow.Statement}
    (parsed : flowStatements tables window entries = .ok statements) :
    ∃ steps, Flow.steps window entries = .ok steps ∧
      Flow.blockSteps statements = steps.filter fun s => !Flow.isGroupMark s.key := by
  obtain ⟨tokens, lexed, nested⟩ := bind_ok parsed
  obtain ⟨steps, read, lexed⟩ := bind_ok lexed
  exact ⟨steps, map_error_ok read,
    (Flow.nest_steps (map_error_ok nested)).trans (Flow.tokens_steps tokens (map_error_ok lexed))⟩

section

variable (process : u.category = .process)
  (built : UnitCode.build settings tables globals isEntry stem u = .ok (code, calls))
include process built

theorem build_process : ∃ statements lines, flowStatements tables (unitWindow settings isEntry) u.flow = .ok statements ∧
      Code.program ⟨u.id, globals, settings.debug⟩ u.params statements = .ok lines ∧
      code.source = Code.render settings.indentWidth lines ∧ code.lineMap = some (.ofLines lines) := by
  unfold UnitCode.build at built
  simp only [process] at built
  obtain ⟨steps, _, built⟩ := bind_ok built
  obtain ⟨statements, parsed, built⟩ := bind_ok built
  obtain ⟨lines, made, built⟩ := bind_ok built
  cases built
  exact ⟨statements, lines, parsed, map_error_ok made, rfl, rfl⟩

theorem build_origins : ∃ statements lines, flowStatements tables (unitWindow settings isEntry) u.flow = .ok statements ∧
      Code.program ⟨u.id, globals, settings.debug⟩ u.params statements = .ok lines ∧
      code.lineMap = some (.ofLines lines) ∧ origins lines = ownLines (unitWindow settings isEntry) u.flow := by
  obtain ⟨statements, lines, parsed, made, _, mapped⟩ := build_process process built
  obtain ⟨steps, read, kept⟩ := flow_steps parsed
  refine ⟨statements, lines, parsed, made, mapped, ?_⟩
  rw [Code.program_origins made, kept]
  exact Flow.steps_from_lines 1 steps read

end

-- The lines with an origin pair up with the surviving steps: both sides ascend, and each finds the
-- other back.
theorem process_lines_own_steps (settings : Settings) (tables : Flow.Tables) (globals : List String)
    (isEntry : Bool) (stem : String) (u : UnitEntry) (code : UnitCode) (calls : List Flow.Step)
    (process : u.category = .process)
    (built : UnitCode.build settings tables globals isEntry stem u = .ok (code, calls)) :
    ∃ statements lines map, flowStatements tables (unitWindow settings isEntry) u.flow = .ok statements ∧
      Code.program ⟨u.id, globals, settings.debug⟩ u.params statements = .ok lines ∧
      code.lineMap = some map ∧ map = LineMap.ofLines lines ∧
      lines.filterMap (·.origin) = ownLines (unitWindow settings isEntry) u.flow ∧
      (ownLines (unitWindow settings isEntry) u.flow).Pairwise (· < ·) ∧
      (∀ line ∈ lines, line.origin ≠ some 0) ∧
      map.forward.map Prod.snd = ownLines (unitWindow settings isEntry) u.flow ∧
      map.forward.Pairwise (fun a b => a.1 < b.1 ∧ a.2 < b.2) ∧
      (∀ f ∈ ownLines (unitWindow settings isEntry) u.flow, ∃ g, map.flowLine? g = some f) ∧
      (∀ g f, map.flowLine? g = some f →
        f ∈ ownLines (unitWindow settings isEntry) u.flow ∧ map.programLines f = [g]) ∧
      (∀ f, f ∉ ownLines (unitWindow settings isEntry) u.flow → map.programLines f = []) := by
  obtain ⟨statements, lines, nested, made, mapped, same⟩ :=
    build_origins process built
  have listed : (lines.map (·.origin)).filterMap id = ownLines (unitWindow settings isEntry) u.flow := by
    rw [List.filterMap_map]
    exact same
  have ascending : ((lines.map (·.origin)).filterMap id).Pairwise (· < ·) := by
    rw [listed]
    exact Flow.own_lines_ascending
  refine ⟨statements, lines, LineMap.ofLines lines, nested, made, mapped, rfl, same,
    Flow.own_lines_ascending, ?_, ?_, ?_, ?_, ?_, ?_⟩
  · intro line member zero
    have counted : 0 ∈ lines.filterMap (·.origin) := List.mem_filterMap.mpr ⟨line, member, zero⟩
    rw [show lines.filterMap (·.origin) = _ from same] at counted
    exact Nat.lt_irrefl 0 (Flow.own_lines_positive counted)
  · rw [← listed, ← Code.numbered_origins _ 1, LineMap.ofLines, LineMap.of_origins_forward]
  · rw [LineMap.ofLines, LineMap.of_origins_forward]
    exact LineMap.numbered_both_ascending ascending
  · intro f member
    rw [← listed] at member
    exact LineMap.origin_flow_line _ member
  · intro g f found
    rw [← listed]
    exact ⟨LineMap.flow_line_origin found, LineMap.program_lines_own ascending found⟩
  · intro f absent
    rw [← listed] at absent
    exact LineMap.program_lines_other absent

def groupedUnit : UnitEntry where
  id := "p1"
  flow := [{ key := "group" }, { key := "if" }, { key := "Net.fetch" }, { key := "else" },
    { key := "Net.close", disabled := true }, { key := "try" }, { key := "Net.open" }, { key := "tryEnd" },
    { key := "groupEnd" }]

theorem grouped_unit_lines : ∃ code calls map,
    UnitCode.build { window := ⟨2, 8⟩ } .standard [] true "main" groupedUnit = .ok (code, calls) ∧
      code.lineMap = some map ∧ map.forward.map Prod.snd = [2, 3, 4, 6, 7, 8] := by
  have builds : ∃ code calls,
      UnitCode.build { window := ⟨2, 8⟩ } .standard [] true "main" groupedUnit = .ok (code, calls) :=
    ⟨_, _, rfl⟩
  obtain ⟨code, calls, built⟩ := builds
  obtain ⟨_, _, map, _, _, mapped, _, _, _, _, flows, _⟩ :=
    process_lines_own_steps { window := ⟨2, 8⟩ } .standard [] true "main" groupedUnit code calls rfl built
  refine ⟨code, calls, map, built, mapped, ?_⟩
  rw [flows]
  decide

end Flowstep.Project
