import Flowstep.Proofs.Upholding
import Flowstep.Proofs.WrittenBack

/-!
Operations are asked for by the step that they belong to.
-/
namespace Flowstep.Code

open Flowstep.Flow (Step Statement Variable blockSteps)
open Script (AtomicCall Expr Host Plain anyName Value pathExpr)
open Script.Interp

-- The call is that of a step, it names the unit and the line of the step, and this is the line that the map has for the line
-- that the script had come to.
def Attributed (unit : String) (steps : List Step) (flowLine : Nat → Option Nat) (call : AtomicCall) : Prop :=
  call.unit = unit ∧ ∃ s ∈ steps, call.key = s.key ∧
    (∃ line : Int64, call.kwarg? "__info__" = some (.list [.int line, .str unit]) ∧ line.toInt = s.line) ∧
    flowLine call.line = some s.line

structure Placed (s : Step) : Prop where
  line : s.line < 2 ^ 63
  inputs : ∀ i ∈ s.shownInputs, marked i.name = false

section

variable {σ : Type} {h : Host σ} {all : List Step} {flowLine : Nat → Option Nat} {line : Nat} {c : Context} {s : Step}

theorem literals_given (vs : List Value) {fuel : Nat} {ctx : Script.Context σ} {values : List Value} {m n : Script.Machine σ}
    (done : evalItems ctx fuel (vs.map .lit) m = .ok values n) : values = vs := by
  induction vs generalizing fuel values m with
  | nil =>
    cases fuel <;> simp only [List.map_nil] at done <;> cases done
    rfl
  | cons v rest ih =>
    cases fuel with
    | zero =>
      cases done
    | succ fuel =>
      obtain ⟨w, between, first, done⟩ := bind_done done
      obtain ⟨others, last, evaluated, done⟩ := bind_done done
      cases done
      cases fuel <;> simp only [eval] at first <;> cases first
      rw [ih evaluated]

theorem place_given (front : List (String × Expr)) (fresh : "__info__" ∉ front.map Prod.fst) {fuel : Nat}
    {ctx : Script.Context σ} {values : List (String × Value)} {m n : Script.Machine σ}
    (done : evalKeywords ctx fuel (front ++ [c.placeExpr s]) m = .ok values n) :
    values.lookup "__info__" = some (.list [.int (Int64.ofInt s.line), .str c.unit]) := by
  induction front generalizing fuel values m with
  | nil =>
    cases fuel with
    | zero =>
      cases done
    | succ fuel =>
      obtain ⟨v, between, listed, done⟩ := bind_done done
      obtain ⟨others, last, _, done⟩ := bind_done done
      cases done
      cases fuel with
      | zero =>
        cases listed
      | succ fuel =>
        obtain ⟨items, last, evaluated, listed⟩ := bind_done listed
        cases listed
        rw [literals_given [.int (Int64.ofInt s.line), .str c.unit] evaluated]
        rfl
  | cons k rest ih =>
    rw [List.map_cons, List.mem_cons, not_or] at fresh
    cases fuel with
    | zero =>
      cases done
    | succ fuel =>
      obtain ⟨v, between, _, done⟩ := bind_done done
      obtain ⟨others, last, evaluated, done⟩ := bind_done done
      cases done
      rw [List.lookup_cons, beq_false_of_ne fresh.1]
      exact ih fresh.2 evaluated

theorem option_names (c : Context) (s : Step) : "__info__" ∉ (c.optionExprs s).map Prod.fst := by
  have one (condition : Prop) [Decidable condition] (name : String) (e : Expr) (other : "__info__" ≠ name) :
      "__info__" ∉ (if condition then [(name, e)] else []).map Prod.fst := by
    split
    · simpa using other
    · simp
  unfold Context.optionExprs
  simp only [List.map_append, List.mem_append, not_or]
  refine ⟨⟨⟨⟨?_, one _ _ _ (by decide)⟩, one _ _ _ (by decide)⟩, one _ _ _ (by decide)⟩, one _ _ _ (by decide)⟩
  cases s.options.onError with
  | exit => simp
  | retry | skip => simp

theorem argument_names (placed : Placed s) : "__info__" ∉ (Context.argumentExprs s).map Prod.fst := by
  intro listed
  rw [Context.argumentExprs, List.map_map] at listed
  obtain ⟨i, shown, same⟩ := List.mem_map.mp listed
  have free := placed.inputs i shown
  rw [show i.name = "__info__" from same] at free
  exact absurd free (by decide)

theorem apt_call (inside : s ∈ all) (placed : Placed s) (here : flowLine line = some s.line) :
    Apt (Attributed c.unit all flowLine) ⟨h.watched, c.unit⟩ line (c.callExpr s) := by
  have keywords := plain_keywords free_known s (free_reads) c
  have named (n : String) : Apt (Attributed c.unit all flowLine) ⟨h.watched, c.unit⟩ line
      (.call (.name n) [] (Context.argumentExprs s ++ c.optionExprs s ++ [c.placeExpr s])) :=
    ⟨List.forall_mem_map.mpr keywords, fun _ => ⟨c.placeExpr s, by simp, by simp [Context.placeExpr]⟩⟩
  unfold Context.callExpr Context.callWith
  cases path : keyPath s.key with
  | nil => exact named ""
  | cons root rest =>
    by_cases single : rest = []
    · subst single
      exact named root
    · obtain ⟨base, method, attr⟩ := path_attr root single
      have plain := Script.plain_path anyName root rest trivial
      rw [attr] at plain ⊢
      cases plain with
      | attr _ _ inner =>
        have dotted := path_dotted root rest
        have joined := Context.key_path_join s.key
        rw [attr] at dotted
        rw [path] at joined
        refine ⟨List.forall_mem_cons.mpr ⟨inner, List.forall_mem_map.mpr keywords⟩, fun _ _ named _ _ less given m n done => ?_⟩
        cases dotted.symm.trans named
        refine ⟨rfl, s, inside, joined, ⟨Int64.ofInt s.line, ?_, Int64.toInt_ofInt_of_le ?_ ?_⟩, here⟩
        · cases less with
          | zero =>
            cases done
          | succ less =>
            obtain ⟨positional, between, _, done⟩ := bind_done done
            obtain ⟨values, last, evaluated, done⟩ := bind_done done
            cases done
            refine place_given _ ?_ evaluated
            rw [List.map_append, List.mem_append, not_or]
            exact ⟨argument_names placed, option_names c s⟩
        · have := placed.line
          omega
        · have := placed.line
          omega

theorem attributed_suits (placed : ∀ s ∈ all, Placed s) :
    Suits (upholding (Attributed c.unit all flowLine) ⟨h.watched, c.unit⟩) c all flowLine where
  plain _ _ plain := plain_apt plain
  report _ kind record plain := by
    refine ⟨List.forall_mem_cons.mpr ⟨.name _ trivial, by simpa using plain⟩, fun root path dotted _ away => ?_⟩
    cases dotted
    exact absurd ⟨rfl, rfl⟩ away
  call s inside _ here := apt_call inside (placed s inside) here
  free _ _ := trivial
  table := trivial

theorem write_backs_fit {good : AtomicCall → Prop} {ctx : Script.Context (σ × List (Script.Answered σ))} (line : Nat)
    (params : List Variable) : blockFits (upholding good ctx) (writeBackStmts line params) := by
  induction params generalizing line with
  | nil => simp only [writeBackStmts, blockFits]
  | cons v rest ih =>
    refine ⟨⟨plain_apt (.name _ trivial), List.forall_mem_singleton.mpr ⟨?_, List.forall_mem_nil _, fun _ _ => trivial⟩⟩,
      ih (line + 1)⟩
    exact List.forall_mem_cons.mpr ⟨plain_apt (.name _ trivial), List.forall_mem_singleton.mpr (plain_apt (plain_text v.name))⟩

theorem main_fits {params : List Variable} {statements : List Statement} {lines : List Line}
    (placed : ∀ s ∈ blockSteps statements, Placed s) (made : program c params statements = .ok lines)
    (sits : Sits flowLine 1 lines) :
    blockFits (upholding (Attributed c.unit (blockSteps statements) flowLine) ⟨h.watched, c.unit⟩)
      (mainFunction c params statements).body := by
  obtain ⟨flow, flowMade, made⟩ := bind_ok made
  cases made
  obtain ⟨sits, _⟩ := sits_append _ _ sits
  obtain ⟨sits, _⟩ := sits_append _ _ sits
  obtain ⟨_, flowSits⟩ := sits_append _ _ sits
  simp only [List.length_append, List.length_cons, List.length_map, List.length_nil] at flowSits
  rw [show 1 + (params.length + 1 + (0 + 1 + 1)) = 2 + params.length + 2 by omega] at flowSits
  have inside := flow_fits (attributed_suits (h := h) placed) (List.Subset.refl _) flowMade flowSits
  unfold mainFunction
  simp only [block_fits_append, blockFits, kindFits, handlerFits, suiteFits, true_and, and_true]
  refine ⟨loads_fit (fun line v => ?_) 2 fun _ _ => trivial, inside, write_backs_fit _ _⟩
  have default := plain_operand free_known (Flow.Fragment.ofValue (declaredValue v)) fun _ _ => trivial
  refine ⟨List.forall_mem_cons.mpr ⟨.name _ trivial, by simpa using ⟨plain_text v.name, default⟩⟩, fun root path dotted other => ?_⟩
  cases dotted
  exact absurd rfl other

end

structure Outside {σ : Type} (good : AtomicCall → Prop) (f : Script.Function) (m : Script.Machine (σ × List (Script.Answered σ))) :
    Prop where
  calls : Asked good m
  functions : m.functions = (∅ : Dict Script.Function).insert "main" f

section

variable {σ : Type} {h : Host σ} {good : AtomicCall → Prop} {unit : String}

theorem define_leads {f : Script.Function} (named : f.name = "main") (fuel : Nat) :
    Leads (σ := σ) (Asked good) (fun m => Asked good m ∧ m.functions = ∅)
      (execBlock ⟨h.watched, unit⟩ fuel [⟨1, .define f⟩]) (Outside good f) := by
  have calls (m : Script.Machine (σ × List (Script.Answered σ))) (held : Asked good m ∧ m.functions = ∅) : Asked good m := held.1
  have checks : Leads (Asked good) (fun m => Asked good m ∧ m.functions = ∅) (checkpoint ⟨h.watched, unit⟩ 1)
      (fun m => Asked good m ∧ m.functions = ∅) := by
    refine leads_bind (leads_modify (J := fun m => Asked good m ∧ m.functions = ∅) fun _ held => held) fun _ => ?_
    refine leads_get fun m _ => ?_
    exact leads_request (fun _ member => nomatch member) calls (fun m w held moved => ⟨moved, held.2⟩) calls
  have defines (fuel : Nat) : Leads (Asked good) (fun m => Asked good m ∧ m.functions = ∅)
      (execKind ⟨h.watched, unit⟩ fuel 1 (.define f)) (Outside good f) := by
    cases fuel with
    | zero =>
      exact leads_throw _ calls
    | succ fuel =>
      refine leads_bind (leads_modify fun m held => ?_) fun _ => leads_done _
      exact ⟨held.1, by rw [held.2, named]⟩
  cases fuel with
  | zero =>
    exact leads_throw _ calls
  | succ fuel =>
    have ran : Leads (Asked good) (fun m => Asked good m ∧ m.functions = ∅) (exec ⟨h.watched, unit⟩ fuel ⟨1, .define f⟩)
        (Outside good f) := by
      cases fuel with
      | zero =>
        exact leads_throw _ calls
      | succ fuel =>
        exact leads_bind checks fun _ => leads_map_error (defines fuel)
    refine leads_bind ran fun flow => ?_
    cases flow with
    | normal =>
      cases fuel with
      | zero =>
        exact leads_throw _ fun _ held => held.calls
      | succ fuel =>
        exact leads_done _
    | «break» | «continue» | «return» v => exact leads_done _

variable {params : List Variable} {statements : List Statement}

theorem invoke_leads {c : Context} (args : Dict Value) (fuel : Nat)
    (fits : blockFits (upholding good ⟨h.watched, unit⟩) (mainFunction c params statements).body) :
    Leads (Asked good) (Outside good (mainFunction c params statements))
      (invoke ⟨h.watched, unit⟩ fuel (mainFunction c params statements) ⟨[.map args], []⟩) (Asked good) := by
  cases fuel with
  | zero =>
    exact leads_throw _ fun _ held => held.calls
  | succ fuel =>
    refine leads_get fun m _ => ?_
    split
    · exact leads_throw _ fun _ held => held.calls
    · have taken : bindArguments (mainFunction c params statements) ⟨[.map args], []⟩ =
          .ok (.ofList [("args", .map args)]) := rfl
      refine leads_then (leads_done _) fun frame m n _ bound => ?_
      cases bound
      have ran : Leads (Asked good) (Upheld good none)
          (Script.Exec.observe (execBlock ⟨h.watched, unit⟩ fuel (mainFunction c params statements).body)) (Asked good) :=
        leads_weaken (leads_observe ((upholds h unit fuel).block _ fits)) (fun _ held => held.calls) fun _ held => held.calls
      refine leads_bind (leads_modify fun m held => ?_) fun _ => leads_bind ran fun result => ?_
      · refine ⟨held.calls, fun n g found => ?_, ⟨_, _, rfl, rfl⟩, nofun⟩
        change m.functions.get? n = some g at found
        rw [held.functions] at found
        by_cases isMain : n = "main"
        · subst isMain
          cases found
          exact ⟨rfl, rfl⟩
        · rw [Dict.get?_insert_of_ne _ isMain] at found
          cases found
      refine leads_get fun m _ => leads_bind (leads_modify (J := Asked good) fun _ held => held) fun _ => ?_
      split
      · exact leads_done _
      · exact leads_done _
      · exact leads_throw _ fun _ held => held

theorem program_leads {c : Context} (args : Dict Value) (fuel : Nat)
    (fits : blockFits (upholding good ⟨h.watched, unit⟩) (mainFunction c params statements).body) :
    Leads (Asked good) (fun m => Asked good m ∧ m.functions = ∅)
      (runProgram ⟨h.watched, unit⟩ fuel (translateProgram c params statements) args) (Asked good) := by
  have calls (m : Script.Machine (σ × List (Script.Answered σ))) (held : Outside good (mainFunction c params statements) m) :
      Asked good m := held.calls
  have enters : Leads (Asked good) (Outside good (mainFunction c params statements)) (runMain ⟨h.watched, unit⟩ fuel args)
      (Asked good) := by
    refine leads_get fun m held => ?_
    rw [held.functions]
    refine leads_bind (invoke_leads args fuel fits) fun result => ?_
    dsimp only
    split
    · exact leads_done _
    · exact leads_done _
  refine leads_bind (define_leads rfl fuel) fun flow => ?_
  cases flow with
  | normal | «break» | «continue» => exact enters
  | «return» v => exact leads_pure _ calls

end

theorem map_sits (lines : List Line) : Sits (LineMap.ofLines lines).flowLine? 1 lines := by
  intro i f origin
  rw [LineMap.ofLines, LineMap.of_origins_flow_line, mem_numbered, List.getElem?_map, Nat.add_sub_cancel_left]
  obtain ⟨l, found, same⟩ := Option.bind_eq_some_iff.mp origin
  exact ⟨Nat.le_add_right 1 i, by rw [found, Option.map_some, same]⟩

end Flowstep.Code

namespace Flowstep.Project

open Flowstep.Flow (Step Tables blockSteps)
open Code (Attributed LineMap marked recorder)
open Script (Ask Host Program Value World callsOf lastState mapState record)

theorem calls_attributed {σ : Type} (settings : Settings) (tables : Tables) (globals : List String) (isEntry : Bool)
    (stem : String) (u : UnitEntry) (code : UnitCode) (calls : List Step) (program : Program) (host : Host σ) (fuel : Nat)
    (args : Dict Value) (world : World σ) (process : u.category = .process) (wide : 1 ≤ settings.indentWidth)
    (described : Described tables (unitWindow settings isEntry) u)
    (unmarked : ∀ statements, flowStatements tables (unitWindow settings isEntry) u.flow = .ok statements →
      ∀ s ∈ blockSteps statements, ∀ i ∈ s.shownInputs, marked i.name = false)
    (built : UnitCode.build settings tables globals isEntry stem u = .ok (code, calls))
    (read : Program.parse code.source = .ok program) :
    ∃ statements map, flowStatements tables (unitWindow settings isEntry) u.flow = .ok statements ∧ code.lineMap = some map ∧
      mapState World.unwatched (program.watch host u.id fuel args world) = program.run host u.id fuel args world ∧
      ∀ call ∈ callsOf (record (program.watch host u.id fuel args world)),
        Attributed u.id (blockSteps statements) map.flowLine? call := by
  obtain ⟨statements, lines, parsed, made, source, mapped⟩ := build_process process built
  obtain ⟨again, parsedAgain, reads⟩ := process_reads globals stem code calls process wide described built
  cases parsed.symm.trans parsedAgain
  obtain ⟨_, rfl⟩ := (reads program).mp read
  have placed : ∀ s ∈ blockSteps statements, Code.Placed s := fun s inside =>
    ⟨by have := (flow_step_bounds parsed s inside).1; have := described.short; omega,
      unmarked statements parsed s inside⟩
  have fits := Code.main_fits (h := host) placed made (Code.map_sits lines)
  have clean : Script.Clean (world.watched ([] : List (Script.Answered σ))).host.2 := fun _ mem => absurd mem List.not_mem_nil
  refine ⟨statements, .ofLines lines, parsed, mapped, ?_, fun call member => ?_⟩
  · exact Script.alike_project (Script.watching σ).ends (fun _ _ tied => tied.1)
      (Script.program_matches (Script.watched_twins host) u.id fuel _ args world (world.watched []) ⟨rfl, clean⟩)
  · have leads := Code.program_leads args fuel fits (.start (world.watched []))
      ⟨fun _ mem => absurd mem List.not_mem_nil, rfl⟩
    unfold record Program.watch Program.run at member
    generalize Script.Interp.runProgram _ fuel _ args (.start (world.watched [])) = r at leads member
    cases r with
    | ok out n => exact leads call member
    | error stop n => exact leads call member

-- Every shape of a call: a loop over a call that is made again, in it a call that is made again and a call that is a
-- condition, and after it one that stands alone.
def shapesUnit : UnitEntry :=
  { id := "p1"
    flow := [{ key := "Folder.file_loop", inputs := [{ key := "__skip_err__", value := .str "retry" },
                 { key := "__retry_time__", value := .str "1" }], outputs := [{ value := .str "row" }] },
      { key := "Net.fetch", inputs := [{ key := "size", value := .str "3" }, { key := "__skip_err__", value := .str "retry" },
          { key := "__retry_time__", value := .str "1" }] },
      { key := "Element.exists" }, { key := "Net.open" }, { key := "ifEnd" }, { key := "forEnd" }, { key := "Net.close" }] }

def calledAt {σ : Type} (entries : List (Script.Answered σ)) : List (String × Nat) :=
  (callsOf entries).map fun call => (call.key, call.line)

def secondFails : Host (List Script.Service) :=
  recorder fun i => if i = 1 then .error (.ofKind (.runtime "down")) else .ok (.list [.int 1, .int 2])

theorem shapes_attributed : ∃ code calls program statements map,
    UnitCode.build {} .standard [] true "main" shapesUnit = .ok (code, calls) ∧ Program.parse code.source = .ok program ∧
      flowStatements .standard {} shapesUnit.flow = .ok statements ∧ code.lineMap = some map ∧
      calledAt (record (program.watch secondFails "p1" 90 ∅ ⟨∅, []⟩)) =
        [("Folder.file_loop", 8), ("Net.fetch", 21), ("Net.fetch", 21), ("Element.exists", 29), ("Net.open", 30),
          ("Net.fetch", 21), ("Element.exists", 29), ("Net.open", 30), ("Net.close", 33)] ∧
      ∀ call ∈ callsOf (record (program.watch secondFails "p1" 90 ∅ ⟨∅, []⟩)),
        Attributed "p1" (blockSteps statements) map.flowLine? call := by
  have described : Described .standard {} shapesUnit := by decide +kernel
  obtain ⟨code, calls, program, out, after, built, read, ran, seen⟩ := ran_such_that .standard [] "main" shapesUnit
    secondFails.watched 90 ∅ (World.watched ⟨∅, []⟩ []) (fun _ after => decide (calledAt after.host.2 =
      [("Folder.file_loop", 8), ("Net.fetch", 21), ("Net.fetch", 21), ("Element.exists", 29), ("Net.open", 30),
        ("Net.fetch", 21), ("Element.exists", 29), ("Net.open", 30), ("Net.close", 33)])) rfl described
    (by decide +kernel) (by decide +kernel)
  have unmarked : ∀ statements, flowStatements .standard {} shapesUnit.flow = .ok statements →
      ∀ s ∈ blockSteps statements, ∀ i ∈ s.shownInputs, marked i.name = false := by
    intro statements parsed
    have holds : (flowStatements .standard {} shapesUnit.flow).toOption.all (fun statements =>
      decide (∀ s ∈ blockSteps statements, ∀ i ∈ s.shownInputs, marked i.name = false)) = true := by decide +kernel
    rw [parsed] at holds
    exact of_decide_eq_true holds
  obtain ⟨statements, map, parsed, mapped, _, attributed⟩ := calls_attributed {} .standard [] true "main" shapesUnit code calls
    program secondFails 90 ∅ ⟨∅, []⟩ rfl (by decide) described unmarked built read
  have recorded : record (program.watch secondFails "p1" 90 ∅ ⟨∅, []⟩) = after.host.2 := by
    unfold record Program.watch
    exact congrArg (fun r => (lastState r).host.2) ran
  refine ⟨code, calls, program, statements, map, built, read, parsed, mapped, ?_, attributed⟩
  rw [recorded]
  exact of_decide_eq_true seen

end Flowstep.Project
