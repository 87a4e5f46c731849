import Flowstep.Proofs.Fitting
import Flowstep.Proofs.Keeping
import Flowstep.Proofs.Loading
import Flowstep.Proofs.Retries

/-!
A flow gives its outputs back however it ends.
-/
namespace Flowstep.Code

open Flowstep.Flow (Statement Variable blockSteps)
open Script (Expr Rule Stmt Value Machine Frames)
open Script.Interp

section

variable {σ : Type} {ctx : Script.Context σ} {fuel : Nat} {m n : Machine σ} {frame : Dict Value} {others : List (Dict Value)}

theorem loads_done (line : Nat) {params : List Variable} {flow : Script.Flow} (split : m.frames.inner = frame :: others)
    (done : execBlock ctx fuel (loadStmts line params) m = .ok flow n) :
    flow = .normal ∧ ∃ later, n.frames.inner = later :: others ∧ ∀ v ∈ params, (later.get? v.name).isSome := by
  induction params generalizing line fuel m frame with
  | nil =>
    rw [loadStmts] at done
    cases fuel <;> simp only [execBlock] at done <;> cases done
    exact ⟨rfl, frame, split, fun _ member => absurd member List.not_mem_nil⟩
  | cons v rest ih =>
    obtain ⟨less, first, k, rfl, loads, done⟩ := block_done done
    obtain ⟨less, passed, rfl, checked, loads⟩ := stmt_done loads
    obtain ⟨less, value, known, rfl, rfl, evaluated, bound⟩ := assign_done loads
    obtain ⟨later, inner, _⟩ := (eval_keeps evaluated).frames.inside frame others
      (by rw [(checkpoint_done checked).1, split])
    have here : k.frames.inner = later.insert v.name value :: others := by
      rw [bind_name_done bound]
      simp only [Frames.bind, inner]
    rcases done with ⟨_, done⟩ | ⟨other, _⟩
    · obtain ⟨ends, last, splitLast, boundLast⟩ := ih (line + 1) here done
      obtain ⟨last', splitLast', grown⟩ := (block_keeps (staying_lenient.block _) done).frames.inside _ _ here
      obtain rfl : last = last' := (List.cons.inj (splitLast.symm.trans splitLast')).1
      refine ⟨ends, last, splitLast, List.forall_mem_cons.mpr ⟨grown.bound v.name ?_, boundLast⟩⟩
      rw [Dict.get?_insert_self]
      rfl
    · exact absurd rfl other

variable {line : Nat} {entries : Dict Value}

theorem write_back_first {v : Variable} {rest : List Variable} {flow : Script.Flow} {value : Value}
    (split : m.frames.inner = frame :: others) (held : frame.get? "args" = some (.map entries))
    (known : frame.get? v.name = some value) (done : execBlock ctx fuel (writeBackStmts line (v :: rest)) m = .ok flow n) :
    ∃ less passed k, checkpoint ctx line m = .ok () passed ∧ k.world = passed.world ∧
      k.frames.inner = frame.insert "args" (.map (entries.insert v.name value)) :: others ∧
      execBlock ctx less (writeBackStmts (line + 1) rest) k = .ok flow n := by
  obtain ⟨less, first, k, rfl, writes, done⟩ := block_done done
  obtain ⟨_, passed, rfl, checked, writes⟩ := stmt_done writes
  obtain ⟨_, w, read, rfl, rfl, evaluated, set⟩ := assign_done writes
  have splitPassed : passed.frames.inner = frame :: others := by rw [(checkpoint_done checked).1, split]
  have current : passed.frames.current = frame := by rw [Frames.current, splitPassed]; rfl
  have look (name : String) (x : Value) (there : frame.get? name = some x) : passed.frames.lookup name = some x := by
    rw [Frames.lookup, current, there]
  obtain ⟨rfl, rfl⟩ := name_done (look v.name value known) evaluated
  have stored := set_entry_done (by decide) (look "args" _ held) set
  rcases done with ⟨_, done⟩ | ⟨abnormal, _⟩
  · refine ⟨_, read, k, checked, by rw [stored], ?_, done⟩
    rw [stored]
    simp only [Frames.rebind, current, Dict.contains, held, Option.isSome_some, if_true, Frames.bind, splitPassed]
  · exact absurd rfl abnormal

theorem write_backs_done (line : Nat) {params : List Variable} {flow : Script.Flow} (entries : Dict Value)
    (split : m.frames.inner = frame :: others) (held : frame.get? "args" = some (.map entries))
    (bound : ∀ v ∈ params, (frame.get? v.name).isSome) (other : ∀ v ∈ params, v.name ≠ "args")
    (done : execBlock ctx fuel (writeBackStmts line params) m = .ok flow n) :
    ∃ later all, n.frames.inner = later :: others ∧ later.get? "args" = some (.map all) ∧
      (∀ v ∈ params, all.get? v.name = frame.get? v.name) ∧
      ∀ name, name ∉ params.map (·.name) → all.get? name = entries.get? name := by
  induction params generalizing line fuel m frame entries with
  | nil =>
    rw [writeBackStmts] at done
    cases fuel <;> simp only [execBlock] at done <;> cases done
    exact ⟨frame, entries, split, held, (fun _ member => absurd member List.not_mem_nil), fun _ _ => rfl⟩
  | cons v rest ih =>
    rw [List.forall_mem_cons] at bound other
    obtain ⟨value, known⟩ := Option.isSome_iff_exists.mp bound.1
    obtain ⟨less, _, k, _, _, here, done⟩ := write_back_first split held known done
    have same (name : String) (different : name ≠ "args") :
        (frame.insert "args" (.map (entries.insert v.name value))).get? name = frame.get? name :=
      Dict.get?_insert_of_ne _ different _
    obtain ⟨last, all, splitLast, heldLast, written, untouched⟩ := ih (line + 1) (entries.insert v.name value) here
      (Dict.get?_insert_self _ _ _) (fun p member => by rw [same p.name (other.2 p member)]; exact bound.2 p member) other.2 done
    refine ⟨last, all, splitLast, heldLast, List.forall_mem_cons.mpr ⟨?_, fun p member => ?_⟩, fun name absent => ?_⟩
    · by_cases again : v.name ∈ rest.map (·.name)
      · obtain ⟨p, member, sameName⟩ := List.mem_map.mp again
        rw [← sameName, written p member, same p.name (other.2 p member)]
      · rw [untouched v.name again, Dict.get?_insert_self, known]
    · rw [written p member, same p.name (other.2 p member)]
    · rw [List.map_cons, List.mem_cons, not_or] at absent
      rw [untouched name absent.2, Dict.get?_insert_of_ne _ absent.1]

theorem write_backs_end (line : Nat) {params : List Variable} {flow : Script.Flow}
    (done : execBlock ctx fuel (writeBackStmts line params) m = .ok flow n) : flow = .normal := by
  induction params generalizing line fuel m with
  | nil =>
    rw [writeBackStmts] at done
    cases fuel <;> simp only [execBlock] at done <;> cases done
    rfl
  | cons v rest ih =>
    obtain ⟨less, first, k, rfl, writes, done⟩ := block_done done
    obtain ⟨less, passed, rfl, _, writes⟩ := stmt_done writes
    obtain ⟨_, _, _, _, rfl, _⟩ := assign_done writes
    rcases done with ⟨_, done⟩ | ⟨abnormal, _⟩
    · exact ih (line + 1) done
    · exact absurd rfl abnormal

def argsMap : Script.Spared := { maps := ["args"] }

theorem args_free {name : String} (other : name ≠ "args") : (staying argsMap : Rule σ σ).free name :=
  ⟨fun listed => other (List.mem_singleton.mp listed), List.not_mem_nil⟩

def mainFunction (c : Context) (params : List Variable) (statements : List Statement) : Script.Function :=
  let attempt := 2 + params.length
  let final := attempt + 2 + allSpan c statements
  ⟨"main", ["args"], loadStmts 2 params ++
    [⟨attempt, .tryBlock (⟨attempt + 1, .pass⟩ :: translateAll c (attempt + 2) statements) none
      (some ⟨final, ⟨final + 1, .pass⟩ :: writeBackStmts (final + 2) (outputs params)⟩)⟩], 1⟩

theorem load_length (line : Nat) (params : List Variable) : (loadStmts line params).length = params.length := by
  induction params generalizing line with
  | nil => rfl
  | cons v rest ih => rw [loadStmts, List.length_cons, List.length_cons, ih]

variable {flow : Script.Flow}

theorem pass_first_done {rest : List Stmt} (done : execBlock ctx fuel (⟨line, .pass⟩ :: rest) m = .ok flow n) :
    ∃ less k, execBlock ctx less rest k = .ok flow n ∧ k.frames = m.frames := by
  obtain ⟨less, first, k, rfl, passes, done⟩ := block_done done
  obtain ⟨_, passed, _, checked, passes⟩ := stmt_done passes
  obtain ⟨rfl, rfl⟩ := pass_done passes
  rcases done with ⟨_, done⟩ | ⟨abnormal, _⟩
  · exact ⟨less, k, done, (checkpoint_done checked).1⟩
  · exact absurd rfl abnormal

structure Prepared (params : List Variable) (frame : Dict Value) : Prop where
  args : ∃ entries, frame.get? "args" = some (.map entries)
  bound : ∀ v ∈ params, (frame.get? v.name).isSome

variable {params : List Variable}

theorem prepared_grows {later : Dict Value} (prepared : Prepared params frame) (grown : Script.Grows argsMap frame later) :
    Prepared params later := by
  obtain ⟨entries, held⟩ := prepared.args
  obtain ⟨w, heldLater, map⟩ := grown.maps "args" List.mem_cons_self _ held rfl
  refine ⟨?_, fun v member => grown.bound v.name (prepared.bound v member)⟩
  cases w with
  | map all => exact ⟨all, heldLater⟩
  | _ => cases map

theorem loads_prepare (named : ∀ v ∈ params, v.name ≠ "args")
    (split : m.frames.inner = frame :: others) (held : frame.get? "args" = some (.map entries))
    (done : execBlock ctx fuel (loadStmts 2 params) m = .ok flow n) :
    flow = .normal ∧ ∃ later, n.frames.inner = later :: others ∧ Prepared params later := by
  obtain ⟨ends, later, splitLater, bound⟩ := loads_done 2 split done
  have fits : blockFits (staying argsMap : Rule σ σ) (loadStmts 2 params) :=
    loads_fit (fun _ _ => none_fixed _) 2 fun v member => args_free (named v member)
  obtain ⟨later', splitLater', grown⟩ := (block_keeps fits done).frames.inside frame others split
  obtain rfl : later = later' := (List.cons.inj (splitLater.symm.trans splitLater')).1
  have before : Prepared [] frame := ⟨⟨entries, held⟩, fun _ member => absurd member List.not_mem_nil⟩
  exact ⟨ends, later, splitLater, (prepared_grows before grown).args, bound⟩

variable {statements : List Statement} {c : Context} {lines : List Line}

theorem flow_keeps_args (free : ∀ s ∈ blockSteps statements, ∀ o ∈ s.outputs, o.target ≠ "args")
    (made : program c params statements = .ok lines) :
    blockFits (staying argsMap : Rule σ σ) (⟨line, .pass⟩ :: translateAll c (line + 1) statements) := by
  obtain ⟨flow, flowMade, _⟩ := bind_ok made
  have suits : Suits (staying argsMap : Rule σ σ) c (blockSteps statements) fun n => (flow[n - (line + 1)]?).bind Line.origin := by
    refine ⟨fun _ _ _ => none_fixed _, fun _ _ _ _ => none_fixed _, fun _ _ _ _ => none_fixed _, fun name bindable => args_free ?_,
      none_fixed _⟩
    rintro rfl
    cases bindable with
    | marked head => exact absurd head (by decide)
    | usual listed => exact absurd listed (by decide)
    | output s inside given =>
      obtain ⟨o, member, same⟩ := List.mem_map.mp given
      exact free s inside o member same
  exact ⟨trivial, flow_fits suits (List.Subset.refl _) flowMade fun i f origin => by simpa using origin⟩

theorem main_done {entries : Dict Value} (named : ∀ v ∈ params, v.name ≠ "args")
    (free : ∀ s ∈ blockSteps statements, ∀ o ∈ s.outputs, o.target ≠ "args")
    (made : program c params statements = .ok lines) (split : m.frames.inner = frame :: others)
    (held : frame.get? "args" = some (.map entries))
    (done : execBlock ctx fuel (mainFunction c params statements).body m = .ok flow n) :
    ∃ loaded started ended later last all, execBlock ctx fuel (loadStmts 2 params) m = .ok .normal loaded ∧
      checkpoint ctx (2 + params.length) loaded = .ok () started ∧
      execBlock ctx (fuel - (params.length + 4))
        (⟨2 + params.length + 1, .pass⟩ :: translateAll c (2 + params.length + 2) statements) started = .ok flow ended ∧
      ended.frames.inner = later :: others ∧ Prepared params later ∧ n.frames.inner = last :: others ∧
      last.get? "args" = some (.map all) ∧ (∀ v ∈ outputs params, all.get? v.name = later.get? v.name) ∧
      ∃ left line before, execBlock ctx left (writeBackStmts line (outputs params)) before = .ok .normal n ∧
        before.frames.inner = later :: others := by
  rcases block_append_done done with ⟨loaded, loads, done⟩ | ⟨abnormal, loads⟩
  · obtain ⟨_, before, splitLoaded, ready⟩ := loads_prepare named split held loads
    rw [load_length] at done
    obtain ⟨less, fuelled, tries⟩ := single_done done
    obtain ⟨less, started, rfl, entered, tries⟩ := stmt_done tries
    obtain ⟨less, ended, left, rfl, ran, leaves, finishes⟩ := final_done
      (fun _ _ last _ done => by
        obtain ⟨_, _, written, _⟩ := pass_first_done done
        exact write_backs_end _ written) tries
    obtain ⟨later, splitLater, grown⟩ := (block_keeps (flow_keeps_args free made) ran).frames.inside before others
      (by rw [(checkpoint_done entered).1, splitLoaded])
    have prepared := prepared_grows ready grown
    obtain ⟨all, heldLater⟩ := prepared.args
    obtain ⟨_, k, written, same⟩ := pass_first_done finishes
    have isOutput (v : Variable) (member : v ∈ outputs params) : v ∈ params := List.mem_of_mem_filter member
    have splitBack : k.frames.inner = later :: others := by rw [same, (checkpoint_done leaves).1, splitLater]
    obtain ⟨last, all, splitLast, heldLast, given, _⟩ := write_backs_done _ all splitBack heldLater
      (fun v member => prepared.bound v (isOutput v member)) (fun v member => named v (isOutput v member)) written
    have spent : fuel - (params.length + 4) = less := by omega
    exact ⟨loaded, started, ended, later, last, all, loads, entered, by rw [spent]; exact ran, splitLater, prepared,
      splitLast, heldLast, given, _, _, k, written, splitBack⟩
  · obtain ⟨ends, _⟩ := loads_prepare named split held loads
    exact absurd ends abnormal

theorem main_defined (done : execBlock ctx fuel (translateProgram c params statements).body m = .ok flow n) :
    flow = .normal ∧ n.frames = m.frames ∧ n.functions.get? "main" = some (mainFunction c params statements) := by
  obtain ⟨less, rfl, defines⟩ := single_done done
  obtain ⟨_, k, _, checked, defines⟩ := stmt_done defines
  obtain ⟨rfl, rfl⟩ := define_done defines
  exact ⟨rfl, (checkpoint_done checked).1, Dict.get?_insert_self _ _ _⟩

-- A program that ends normally has called its function, and gives back the map of the arguments as it was then.
theorem program_main {c : Context} {params : List Variable} {statements : List Statement} {args out : Dict Value}
    {m n : Machine σ} (top : m.frames.inner = [])
    (done : runProgram ctx fuel (translateProgram c params statements) args m = .ok out n) :
    ∃ less defined called how left, fuel = less + 1 ∧
      execBlock ctx fuel (translateProgram c params statements).body m = .ok .normal defined ∧
      called = { defined with frames := defined.frames.push (.ofList [("args", .map args)]) } ∧
      called.frames.inner = [.ofList [("args", .map args)]] ∧
      execBlock ctx less (mainFunction c params statements).body called = .ok how left ∧ n.world = left.world ∧
      ∀ last all, left.frames.inner = [last] → last.get? "args" = some (.map all) → out = all := by
  obtain ⟨flow, defined, defines, done⟩ := bind_done done
  obtain ⟨rfl, sameFrames, isMain⟩ := main_defined defines
  obtain ⟨_, k, look, done⟩ := bind_done done
  cases look
  rw [isMain] at done
  obtain ⟨⟨v, frame⟩, k, calls, done⟩ := bind_done done
  obtain ⟨less, given, how, left, rfl, fits, ran, rfl, sameWorld⟩ := invoke_done calls
  cases fits
  have alone : ({ defined with frames := defined.frames.push (.ofList [("args", .map args)]) } : Machine σ).frames.inner =
      [.ofList [("args", .map args)]] := by
    change _ :: defined.frames.inner = _
    rw [sameFrames, top]
  dsimp only at done
  have ends : n = k := by
    cases found : left.frames.current.get? "args" with
    | none =>
      rw [found] at done
      cases done
      rfl
    | some w =>
      rw [found] at done
      cases w <;> cases done <;> rfl
  refine ⟨less, defined, _, how, left, rfl, defines, rfl, alone, ran, by rw [ends, sameWorld], fun last all split held => ?_⟩
  have current : left.frames.current = last := by rw [Frames.current, split]; rfl
  rw [current, held] at done
  cases done
  rfl

theorem program_done {c : Context} {params : List Variable} {statements : List Statement} {args out : Dict Value}
    (named : ∀ v ∈ params, v.name ≠ "args") (free : ∀ s ∈ blockSteps statements, ∀ o ∈ s.outputs, o.target ≠ "args")
    (made : program c params statements = .ok lines) {m n : Machine σ} (top : m.frames.inner = [])
    (done : runProgram ctx fuel (translateProgram c params statements) args m = .ok out n) :
    ∃ defined loaded started ended how later,
      execBlock ctx fuel (translateProgram c params statements).body m = .ok .normal defined ∧
      execBlock ctx (fuel - 1) (loadStmts 2 params)
        { defined with frames := defined.frames.push (.ofList [("args", .map args)]) } = .ok .normal loaded ∧
      checkpoint ctx (2 + params.length) loaded = .ok () started ∧
      execBlock ctx (fuel - (params.length + 5))
        (⟨2 + params.length + 1, .pass⟩ :: translateAll c (2 + params.length + 2) statements) started = .ok how ended ∧
      ended.frames.inner = [later] ∧ ∀ v ∈ outputs params, ∃ value, later.get? v.name = some value ∧ out.get? v.name = some value := by
  obtain ⟨less, defined, _, how, left, rfl, defines, rfl, alone, ran, _, gives⟩ :=
    program_main top done
  obtain ⟨loaded, started, ended, later, last, all, loads, enters, body, splitLater, prepared, splitLast, held, written, _⟩ :=
    main_done named free made alone rfl ran
  have given : out = all := gives last all splitLast held
  have spent : less + 1 - (params.length + 5) = less - (params.length + 4) := by omega
  refine ⟨defined, loaded, started, ended, how, later, defines, loads, enters, by rw [spent]; exact body, splitLater,
    fun v member => ?_⟩
  obtain ⟨value, known⟩ := Option.isSome_iff_exists.mp (prepared.bound v (List.mem_of_mem_filter member))
  exact ⟨value, known, by rw [given, written v member, known]⟩

end

end Flowstep.Code

namespace Flowstep.Project

open Flowstep.Flow (Step Tables StepEntry Variable blockSteps)
open Code (NumbersFit loadStmts recorder translateAll translateProgram)
open Script (Host Machine Program Value World)
open Script.Interp (checkpoint execBlock)

theorem outputs_written_back {σ : Type} (settings : Settings) (tables : Tables) (globals : List String) (isEntry : Bool)
    (stem : String) (u : UnitEntry) (code : UnitCode) (calls : List Step) (program : Program) (host : Host σ) (unit : String)
    (fuel : Nat) (args out : Dict Value) (world after : World σ) (process : u.category = .process)
    (wide : 1 ≤ settings.indentWidth) (described : Described tables (unitWindow settings isEntry) u)
    (named : ∀ v ∈ u.params, v.name ≠ "args")
    (free : ∀ statements, flowStatements tables (unitWindow settings isEntry) u.flow = .ok statements →
      ∀ s ∈ blockSteps statements, ∀ o ∈ s.outputs, o.target ≠ "args")
    (built : UnitCode.build settings tables globals isEntry stem u = .ok (code, calls))
    (read : Program.parse code.source = .ok program) (ran : program.run host unit fuel args world = .ok out after) :
    ∃ statements defined loaded started ended how frame,
      flowStatements tables (unitWindow settings isEntry) u.flow = .ok statements ∧
      execBlock ⟨host, unit⟩ fuel program.body (.start world) = .ok .normal defined ∧
      execBlock ⟨host, unit⟩ (fuel - 1) (loadStmts 2 u.params)
        { defined with frames := defined.frames.push (.ofList [("args", .map args)]) } = .ok .normal loaded ∧
      checkpoint ⟨host, unit⟩ (2 + u.params.length) loaded = .ok () started ∧
      execBlock ⟨host, unit⟩ (fuel - (u.params.length + 5)) (⟨2 + u.params.length + 1, .pass⟩ ::
        translateAll ⟨u.id, globals, settings.debug⟩ (2 + u.params.length + 2) statements) started = .ok how ended ∧
      ended.frames.inner = [frame] ∧
      ∀ v ∈ Code.outputs u.params, ∃ value, frame.get? v.name = some value ∧ out.get? v.name = some value := by
  obtain ⟨statements, lines, parsed, made, _⟩ := build_process process built
  obtain ⟨_, parsedAgain, reads⟩ := process_reads globals stem code calls process wide described built
  cases parsed.symm.trans parsedAgain
  obtain ⟨_, rfl⟩ := (reads program).mp read
  obtain ⟨n, done⟩ : ∃ n, Script.Interp.runProgram ⟨host, unit⟩ fuel
      (Code.translateProgram ⟨u.id, globals, settings.debug⟩ u.params statements) args (.start world) = .ok out n := by
    unfold Program.run at ran
    split at ran
    · rename_i outputs n done
      cases ran
      exact ⟨n, done⟩
    · cases ran
  obtain ⟨defined, loaded, started, ended, how, frame, steps⟩ := Code.program_done named (free statements parsed) made rfl done
  exact ⟨statements, defined, loaded, started, ended, how, frame, parsed, steps⟩

theorem ran_such_that {σ : Type} (tables : Tables) (globals : List String) (stem : String) (u : UnitEntry)
    (host : Host σ) (fuel : Nat) (args : Dict Value) (world : World σ) (holds : Dict Value → World σ → Bool)
    (process : u.category = .process) (described : Described tables {} u)
    (compiles : (UnitCode.build {} tables globals true stem u).isOk = true)
    (runs : (match flowStatements tables {} u.flow with
      | .ok statements => decide (NumbersFit ⟨u.id, globals, false⟩ u.params statements) &&
        match (translateProgram ⟨u.id, globals, false⟩ u.params statements).run host u.id fuel args world with
          | .ok out after => holds out after
          | .error _ _ => false
      | .error _ => false) = true) :
    ∃ code calls program out after, UnitCode.build {} tables globals true stem u = .ok (code, calls) ∧
      Program.parse code.source = .ok program ∧ program.run host u.id fuel args world = .ok out after ∧
      holds out after = true := by
  cases built : UnitCode.build {} tables globals true stem u with
  | error e =>
    rw [built] at compiles
    cases compiles
  | ok made =>
    obtain ⟨statements, parsed, reads⟩ :=
      process_reads globals stem made.1 made.2 process (by decide) described built
    change flowStatements tables {} u.flow = .ok statements at parsed
    rw [parsed, Bool.and_eq_true] at runs
    have read := (reads _).mpr ⟨of_decide_eq_true runs.1, rfl⟩
    have runs := runs.2
    split at runs
    · rename_i out after ran
      exact ⟨made.1, made.2, _, out, after, rfl, read, ran, runs⟩
    · cases runs

def searchUnit : UnitEntry :=
  { id := "p1"
    params := [{ name := "rows", value := .str "[1, 2]" }, { name := "found", direction := .output },
      { name := "closed", direction := .output }]
    flow := [{ key := "forList"
               inputs := [{ key := "lists", value := .arr [.ofFields [("type", .str "var"), ("data", .str "rows")]] }]
               outputs := [{ value := .str "row" }] },
      { key := "try" }, { key := "Net.fetch", outputs := [{ value := .str "found" }] }, { key := "return" },
      { key := "finally" }, { key := "Net.close", outputs := [{ value := .str "closed" }] }, { key := "tryEnd" },
      { key := "forEnd" }, { key := "Net.fetch", outputs := [{ value := .str "found" }] }] }

theorem search_written_back : ∃ code calls program out after,
    UnitCode.build {} .standard [] true "main" searchUnit = .ok (code, calls) ∧ Program.parse code.source = .ok program ∧
      program.run (recorder fun i => .ok (.int i.toInt64)) "p1" 60 ∅ ⟨∅, []⟩ = .ok out after ∧
      ((out.get? "found").map Value.display, (out.get? "closed").map Value.display) = (some "0", some "1") ∧
      ∃ (ended : Machine (List Script.Service)) (frame : Dict Value), ended.frames.inner = [frame] ∧
        (∃ value, frame.get? "found" = some value ∧ out.get? "found" = some value) ∧
        ∃ value, frame.get? "closed" = some value ∧ out.get? "closed" = some value := by
  have described : Described .standard {} searchUnit := by decide +kernel
  obtain ⟨code, calls, program, out, after, built, read, ran, seen⟩ := ran_such_that .standard [] "main" searchUnit
    (recorder fun i => .ok (.int i.toInt64)) 60 ∅ ⟨∅, []⟩
    (fun out _ => decide (((out.get? "found").map Value.display, (out.get? "closed").map Value.display) = (some "0", some "1")))
    rfl described (by decide +kernel) (by decide +kernel)
  have free : ∀ statements, flowStatements .standard {} searchUnit.flow = .ok statements →
      ∀ s ∈ blockSteps statements, ∀ o ∈ s.outputs, o.target ≠ "args" := by
    intro statements parsed
    have holds : (match flowStatements .standard {} searchUnit.flow with
      | .ok statements => decide (∀ s ∈ blockSteps statements, ∀ o ∈ s.outputs, o.target ≠ "args")
      | .error _ => true) = true := by decide +kernel
    rw [parsed] at holds
    exact of_decide_eq_true holds
  obtain ⟨_, _, _, _, ended, _, frame, _, _, _, _, _, alone, written⟩ := outputs_written_back {} .standard [] true "main"
    searchUnit code calls program _ "p1" 60 ∅ out ⟨∅, []⟩ after rfl (by decide) described (by decide) free built read ran
  obtain ⟨found, written⟩ := List.forall_mem_cons.mp written
  obtain ⟨closed, _⟩ := List.forall_mem_cons.mp written
  exact ⟨code, calls, program, out, after, built, read, ran, of_decide_eq_true seen, ended, frame, alone, found, closed⟩

end Flowstep.Project
