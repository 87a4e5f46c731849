import Flowstep.Proofs.Blame
import Flowstep.Proofs.Engines
import Flowstep.Proofs.Loading

/-!
The line that is told of a failed run.
-/
namespace Flowstep.Run

open Script (AtomicCall Error Host Place Scope Stop Value World)
open Script.Interp (Prompt bindArguments blameProgram execBlock)

variable {ε α β : Type}

def Fails (kind : Error → Prop) (p : Act ε α) : Prop := ∀ w e w', p w = .error (.error e) w' → kind e

section

variable {kind : Error → Prop}

variable {p : Act ε α}

theorem fails_never (never : ∀ w e w', p w ≠ .error (.error e) w') : Fails kind p :=
  fun w e w' failed => absurd failed (never w e w')

theorem fails_bind {f : α → Act ε β} (first : Fails kind p) (second : ∀ a, Fails kind (f a)) :
    Fails kind (p >>= f) := by
  intro w e w' failed
  rcases Script.Interp.bind_failed failed with failed | ⟨a, k, _, failed⟩
  · exact first w e w' failed
  · exact second a k e w' failed

theorem fails_throw {e : Error} (known : kind e) : Fails kind (throw (Stop.error e) : Act ε α) := by
  intro w e' w' failed
  cases failed
  exact known

theorem fails_update {f : Execution ε → Execution ε} : Fails kind (Act.update f) := fails_never fun _ _ _ => nofun

theorem fails_execution : Fails kind (Act.execution : Act ε (Execution ε)) := fails_never fun _ _ _ => nofun

theorem fails_emit (level : Report.Level) (fields : List (String × Json)) : Fails kind (Act.emitCode level fields : Act ε Unit) :=
  fails_never fun _ _ _ => nofun

theorem fails_emit_if {given : Bool} {level : Report.Level} {fields : List (String × Json)} (rest : Fails kind p) :
    Fails kind (do
      if given then Act.emitCode level fields
      p) := by
  cases given with
  | true => exact fails_bind (fails_emit level fields) fun _ => rest
  | false => exact rest

variable (halts : ∀ e, e.isHalted = true → kind e)
include halts

theorem fails_halt : Fails kind (Act.halt : Act ε α) := fails_throw (halts _ rfl)

theorem fails_halt_if_stopped : Fails kind (Act.haltIfStopped : Act ε Unit) := by
  refine fails_bind fails_execution fun x => ?_
  split
  · exact fails_halt halts
  · exact fails_never fun _ _ _ => nofun

theorem fails_resume (p : Pause) {control : Control} : Fails kind (resume p control : Act ε Unit) := by
  unfold resume
  split
  · exact fails_bind (fails_update) fun _ => fails_halt halts
  · split
    · exact fails_never fun _ _ _ => nofun
    · exact fails_bind (fails_update) fun _ => fails_bind (fails_update) fun _ => fails_update

theorem fails_pause (o : Surroundings ε) {p : Pause} : Fails kind (pause o p) :=
  fails_bind (fails_update) fun _ => fails_bind (fails_update) fun _ => fails_bind (fails_update) fun _ =>
    fails_bind fails_execution fun _ => fails_resume halts p

theorem fails_checkpoint (config : Config) (o : Surroundings ε) (line : Nat) (scope : Scope) :
    Fails kind (checkpoint config o line scope) := by
  refine fails_bind (fails_halt_if_stopped halts) fun _ => ?_
  split
  · refine fails_bind fails_execution fun x => ?_
    split
    · exact fails_never fun _ _ _ => nofun
    · refine fails_bind (fails_update) fun _ => ?_
      split
      · exact fails_never fun _ _ _ => nofun
      · exact fails_bind (fails_never fun _ _ _ => nofun) fun _ => fails_pause halts o
  · exact fails_never fun _ _ _ => nofun

theorem fails_sleep (o : Surroundings ε) (seconds : Float) : Fails kind (sleep o seconds) := by
  refine fails_bind (fails_halt_if_stopped halts) fun _ => ?_
  split
  · exact fails_bind (fails_update) fun _ => fails_halt_if_stopped halts
  · exact fails_never fun _ _ _ => nofun

omit halts

theorem fails_serve (o : Surroundings ε) (inner : Fails kind p) : Fails kind (serve o p) :=
  fails_bind (fails_update) fun _ => inner

theorem fails_delay {s : Float → Act ε Unit} (sleeps : ∀ seconds, Fails kind (s seconds)) {seconds : Option Value} :
    Fails kind (delay s seconds) := by
  unfold delay
  split
  · exact sleeps _
  · exact fails_never fun _ _ _ => nofun

include halts

theorem fails_operate (fresh : ∀ k, kind (.ofKind k)) (config : Config) (o : Surroundings ε) {s : Float → Act ε Unit}
    (sleeps : ∀ seconds, Fails kind (s seconds)) (call : AtomicCall) : Fails kind (operate config o s call) := by
  refine fails_bind (fails_delay sleeps) fun _ => fails_bind (fails_update) fun _ => ?_
  refine fails_bind (fails_halt_if_stopped halts) fun _ => fails_emit_if (fails_bind (fails_never fun _ _ _ => nofun) fun result => ?_)
  refine fails_bind (fails_halt_if_stopped halts) fun _ => ?_
  cases result with
  | ok value => exact fails_emit_if (fails_bind (fails_delay sleeps) fun _ => fails_never fun _ _ _ => nofun)
  | error e =>
    dsimp only
    split
    · exact fails_bind (fails_emit _ _) fun _ => fails_never fun _ _ _ => nofun
    · exact fails_throw (fresh _)

end

inductive CallFailure (loaded : Loaded) (host : Host (Execution ε)) (fuel : Nat) : Error → Prop where
  | halted (e : Error) (halted : e.isHalted = true) : CallFailure loaded host fuel e
  | fresh (kind : Script.ErrorKind) : CallFailure loaded host fuel (.ofKind kind)
  | unit (id : String) (program : Script.Program) (args : Dict Value) (start after : World (Execution ε)) (e : Error)
      (held : loaded.programs.get? id = some program) (failed : program.run host id fuel args start = .error (.error e) after) :
      CallFailure loaded host fuel e

theorem call_fails (config : Config) (o : Surroundings ε) (loaded : Loaded) (host : Host (Execution ε)) (fuel : Nat)
    {s : Float → Act ε Unit} (sleeps : ∀ seconds, Fails (·.isHalted = true) (s seconds)) (call : AtomicCall) :
    Fails (CallFailure loaded host fuel) (callAtomic config o loaded host fuel s call) := by
  refine fails_bind (fails_halt_if_stopped .halted) fun _ => ?_
  cases unitOf? call with
  | none =>
    exact fails_operate .halted .fresh config o (fun seconds w e w' failed => .halted e (sleeps seconds w e w' failed)) call
  | some id =>
    dsimp only
    unfold callUnit
    split
    · rename_i program u held _
      refine fails_bind (fails_update) fun _ => fails_bind (fun w e w' failed => ?_) fun outputs => fails_never fun _ _ _ => nofun
      unfold Act.leaving at failed
      split at failed
      · cases failed
      · rename_i stop after ran
        cases failed
        exact .unit id program _ w after e held ran
    · exact fails_throw (.fresh _)

theorem engine_prompt (config : Config) (o : Surroundings ε) (loaded : Loaded) (fuel depth : Nat) :
    Prompt (engineHost config o loaded fuel depth) := by
  cases depth with
  | zero =>
    exact {
      checkpoint := fun _ _ _ _ _ => nofun
      report := fun _ _ _ _ _ => nofun
      sleep := fun _ _ _ _ => nofun
      print := fun _ _ _ _ => nofun }
  | succ depth =>
    exact {
      checkpoint := fun line scope => fails_serve o (fails_checkpoint (fun _ halted => halted) config o line scope)
      report := fun level record => fails_serve o (fails_update)
      sleep := fun seconds => fails_serve o (fails_sleep (fun _ halted => halted) o seconds)
      print := fun text => fails_serve o (fails_emit _ _) }

-- Where a failure that comes out of an evaluation has its lines from: it has none, or it is the failure of a unit that was
-- called, or it comes out of a function of the script.
def Begins (config : Config) (o : Surroundings ε) (loaded : Loaded) (fuel depth : Nat) (unit : String) (raised : Error) : Prop :=
  raised.trace = [] ∨
    (∃ id program args start after e, loaded.programs.get? id = some program ∧
      program.run (engineHost config o loaded fuel depth) id fuel args start = .error (.error e) after ∧
      raised.trace = e.trace) ∨
    ∃ less f args m n, Script.Interp.invoke ⟨engineHost config o loaded fuel (depth + 1), unit⟩ less f args m =
      .error (.error raised) n

variable {config : Config} {loaded : Loaded} {fuel depth : Nat} {unit : String}

theorem begins_raised {o : Surroundings ε}
    {b : Script.Blame} (began : Script.Interp.Began ⟨engineHost config o loaded fuel (depth + 1), unit⟩ b) :
    Begins config o loaded fuel depth unit b.raised := by
  rcases began.raised.origin with fresh | ⟨call, w, inner, w', failed, same⟩ | called
  · exact .inl fresh
  · have sleeps (seconds : Float) : Fails (·.isHalted = true) (serve o (sleep o seconds)) :=
      fails_serve o (fails_sleep (fun _ halted => halted) o seconds)
    have kind := fails_serve o (call_fails config o loaded (engineHost config o loaded fuel depth) fuel sleeps call)
      w inner w' failed
    have live := began.live
    rw [same] at live ⊢
    cases kind with
    | halted e halted => exact Script.Interp.not_live halted live
    | fresh kind => exact .inl rfl
    | unit id program args start after e held ran => exact .inr (.inl ⟨id, program, args, start, after, inner, held, ran, rfl⟩)
  · exact .inr (.inr called)

theorem report_flow_line (config : Config) (b : Breakpoints) (e : Error) :
    (failureReport config b e).flowLine = e.trace.findSome? fun p => b.flowLine? p.unit p.line := by
  unfold failureReport
  induction e.trace with
  | nil => rfl
  | cons p rest ih =>
    rw [List.map_cons, List.findSome?_cons]
    cases found : b.flowLine? p.unit p.line with
    | none => simpa using ih
    | some f => simp

theorem set_maps (b : Breakpoints) (unit : String) (line : Nat) : (b.trySet unit line).maps = b.maps := by
  unfold Breakpoints.trySet Breakpoints.set
  cases b.resolve unit line <;> rfl

theorem of_bundle_maps (bundle : Project.Bundle) : (Breakpoints.ofBundle bundle).maps = Breakpoints.mapsOf bundle := by
  refine List.foldlRecOn (motive := fun b : Breakpoints => b.maps = Breakpoints.mapsOf bundle) _ _ rfl fun b known e _ => ?_
  refine List.foldlRecOn (motive := fun b : Breakpoints => b.maps = Breakpoints.mapsOf bundle) _ _ known fun b known line _ => ?_
  rw [set_maps, known]

variable {code : Project.UnitCode}

theorem flow_line_lookup {units : List (String × Project.UnitCode)} {id : String} {map : Code.LineMap}
    (held : units.lookup id = some code) (mapped : code.lineMap = some map) :
    (units.filterMap fun e => e.2.lineMap.map fun m => (e.1, m)).lookup id = some map := by
  induction units with
  | nil => cases held
  | cons e rest ih =>
    rw [List.lookup_cons] at held
    rw [List.filterMap_cons]
    split at held
    · rename_i same
      cases held
      rw [mapped]
      simp [List.lookup_cons, same]
    · rename_i other
      cases own : e.2.lineMap with
      | none => simpa using ih held
      | some m => simpa [List.lookup_cons, other] using ih held

theorem programs_lookup {units : List (String × Project.UnitCode)} (programs : List (String × Script.Program)) {id : String}
    {code : Project.UnitCode} {program : Script.Program}
    (read : (units.mapM fun e => do return (e.1, ← (Script.Program.parse e.2.source).mapError (StartError.load e.1))) = .ok programs)
    (held : units.lookup id = some code) (found : programs.lookup id = some program) :
    Script.Program.parse code.source = .ok program := by
  induction units generalizing programs with
  | nil => cases held
  | cons e rest ih =>
    rw [List.mapM_cons] at read
    obtain ⟨first, here, read⟩ := bind_ok read
    obtain ⟨others, more, read⟩ := bind_ok read
    obtain ⟨own, parsed, here⟩ := bind_ok here
    cases here
    cases read
    rw [List.lookup_cons] at held found
    split at held
    · rename_i same
      rw [same] at found
      cases held
      cases found
      exact map_error_ok parsed
    · rename_i other
      rw [other] at found
      exact ih others more held found

-- A failure of a process is told with the line of the statement that it began in, unless it has the line of a called unit.
-- That is the line that the script had come to, except in the test of a later clause.
theorem failure_told_at_statement (settings : Project.Settings) (tables : Flow.Tables) (d : Project.Document)
    (bundle : Project.Bundle) (loaded : Loaded) (u : Project.UnitEntry) (program : Script.Program) (config : Config)
    (o : Surroundings ε) (fuel depth : Nat) (args : Dict Value) (world after : World (Execution ε)) (e : Error)
    (breakpoints : Breakpoints) (built : d.build settings tables = .ok bundle) (load : Loaded.ofBundle bundle = .ok loaded)
    (inside : u ∈ d.units) (process : u.category = .process) (held : loaded.programs.get? u.id = some program)
    (maps : breakpoints.maps = Breakpoints.mapsOf bundle) (live : e.isHalted = false)
    (failed : program.run (engineHost config o loaded fuel (depth + 1)) u.id fuel args world = .error (.error e) after) :
    ∃ code statements lines, bundle.units.get? u.id = some code ∧ Script.Program.parse code.source = .ok program ∧
      Project.flowStatements tables (Project.unitWindow settings (u.id == bundle.entry)) u.flow = .ok statements ∧
      Code.program ⟨u.id, d.globals.map (·.name), settings.debug⟩ u.params statements = .ok lines ∧
      ((∀ text ∈ Code.rawProgram ⟨u.id, d.globals.map (·.name), settings.debug⟩ u.params statements, '\n' ∉ text.toList) →
        Text.pieces code.source = lines.map (Code.Line.render settings.indentWidth)) ∧
      (∀ g f, breakpoints.flowLine? u.id g = some f ↔ 1 ≤ g ∧ ∃ line, lines[g - 1]? = some line ∧ line.origin = some f) ∧
      ((∃ flow n main kind, execBlock ⟨engineHost config o loaded fuel (depth + 1), u.id⟩ fuel program.body (.start world) =
          .ok flow n ∧ n.functions.get? "main" = some main ∧
          bindArguments main ⟨[.map args], []⟩ = .error (Stop.ofKind kind)) ∨
        ∃ b, blameProgram ⟨engineHost config o loaded fuel (depth + 1), u.id⟩ fuel program args (.start world) = some b ∧
          Begins config o loaded fuel depth u.id b.raised ∧ e.kind = b.raised.kind ∧
          e.trace = b.raised.trace ++ [⟨u.id, b.line⟩] ∧
          (failureReport config breakpoints e).flowLine =
            (failureReport config breakpoints b.raised).flowLine.or (breakpoints.flowLine? u.id b.line) ∧
          (b.clause = none → (failureReport config breakpoints b.raised).flowLine = none →
            (failureReport config breakpoints e).flowLine = breakpoints.flowLine? u.id b.header)) := by
  obtain ⟨present, units⟩ := Project.bundle_found built
  obtain ⟨stem, code, calls, found, unitBuilt⟩ := units u inside
  obtain ⟨statements, lines, parsed, made, source, mapped⟩ := Project.build_process process unitBuilt
  refine ⟨code, statements, lines, found, ?_, parsed, made, fun plain => ?_, fun g f => ?_, ?_⟩
  · unfold Loaded.ofBundle at load
    simp only [present, Bool.not_true, Bool.false_eq_true, if_false] at load
    obtain ⟨programs, read, load⟩ := bind_ok load
    cases load
    exact programs_lookup programs read found held
  · rw [source, Code.render_pieces (Code.program_lines_present made), Code.program_plain made]
    exact plain
  · have known : breakpoints.lineMap? u.id = some (.ofLines lines) := by
      rw [Breakpoints.lineMap?, maps]
      exact flow_line_lookup found mapped
    rw [Breakpoints.flowLine?, known, Option.bind_some, Code.LineMap.ofLines, Code.LineMap.of_origins_flow_line,
      Code.mem_numbered, List.getElem?_map, Option.map_eq_some_iff]
  · unfold Script.Program.run at failed
    split at failed
    · cases failed
    rename_i stop n ran
    cases failed
    refine (Script.Interp.program_traced (engine_prompt config o loaded fuel (depth + 1)) rfl rfl live ran).imp_right ?_
    rintro ⟨b, traced, began, kind, trace⟩
    have told : (failureReport config breakpoints e).flowLine =
        (failureReport config breakpoints b.raised).flowLine.or (breakpoints.flowLine? u.id b.line) := by
      rw [report_flow_line, report_flow_line, trace, List.findSome?_append, List.findSome?_singleton]
    refine ⟨b, traced, begins_raised began, kind, trace, told, fun first unmapped => ?_⟩
    rw [told, unmapped, Option.none_or, Script.Blame.header, first]
    rfl

section

open Flowstep.Flow (StepEntry)
open Project (Bundle Described alone loaded_such_that)
open Script (Blame Program)

def silence : Surroundings Unit where
  paused panel x := (panel, x)
  sleeping _ panel x := (panel, x)
  passing panel x := (panel, x)
  perform _ panel x := (.error (.failed "lost"), panel, x)

def aloneHost (bundle : Bundle) (program : Program) : Host (Execution Unit) :=
  engineHost {} silence ⟨bundle, ⟨[("p1", program)]⟩⟩ 60 2

def failing (holds : Bundle → Error → Blame → Bool) (bundle : Bundle) (program : Program) : Bool :=
  let world := Execution.start {} bundle ()
  match program.run (aloneHost bundle program) "p1" 60 ∅ world,
    blameProgram ⟨aloneHost bundle program, "p1"⟩ 60 program ∅ (.start world) with
  | .error (.error e) _, some b => !e.isHalted && holds bundle e b
  | _, _ => false

theorem failed_such_that (flow : List StepEntry) (holds : Bundle → Error → Blame → Bool)
    (described : Described .standard {} { id := "p1", flow }) (computed : Project.computes flow (failing holds) = true) :
    ∃ bundle program e after b, (alone flow).build {} .standard = .ok bundle ∧
      Loaded.ofBundle bundle = .ok ⟨bundle, ⟨[("p1", program)]⟩⟩ ∧
      program.run (aloneHost bundle program) "p1" 60 ∅ (Execution.start {} bundle ()) = .error (.error e) after ∧
      e.isHalted = false ∧
      blameProgram ⟨aloneHost bundle program, "p1"⟩ 60 program ∅ (.start (Execution.start {} bundle ())) = some b ∧
      holds bundle e b = true := by
  obtain ⟨bundle, program, built, load, seen⟩ := loaded_such_that described computed
  unfold failing at seen
  dsimp only at seen
  split at seen
  · rename_i e after b failed blamed
    obtain ⟨live, holds⟩ := Bool.and_eq_true_iff.mp seen
    exact ⟨bundle, program, e, after, b, built, load, failed, by simpa using live, blamed, holds⟩
  · cases seen

def againFlow : List StepEntry :=
  [{ key := "forList", inputs := [{ key := "lists", value := .str "[1]" }] },
    { key := "Net.fetch"
      inputs := [{ key := "__skip_err__", value := .str "retry" }, { key := "__retry_time__", value := .str "1" }] },
    { key := "forEnd" }]

-- The failure is raised again by a line that comes from no step, but it is told at the call.
theorem failure_told_at_repeated_call : ∃ bundle program e after b, ∃ (lines : List Code.Line) (line : Code.Line),
    (alone againFlow).build {} .standard = .ok bundle ∧
      Loaded.ofBundle bundle = .ok ⟨bundle, ⟨[("p1", program)]⟩⟩ ∧
      program.run (aloneHost bundle program) "p1" 60 ∅ (Execution.start {} bundle ()) = .error (.error e) after ∧
      e.isHalted = false ∧
      blameProgram ⟨aloneHost bundle program, "p1"⟩ 60 program ∅ (.start (Execution.start {} bundle ())) = some b ∧
      lines[b.header - 1]? = some line ∧ line.origin = some 2 ∧
      (failureReport {} (.ofBundle bundle) e).flowLine = some 2 := by
  obtain ⟨bundle, program, e, after, b, built, load, failed, live, blamed, seen⟩ := failed_such_that againFlow
    (fun bundle _ b => decide (b.clause = none ∧ (failureReport {} (.ofBundle bundle) b.raised).flowLine = none ∧
      (Breakpoints.ofBundle bundle).flowLine? "p1" b.header = some 2)) (by decide +kernel) (by decide +kernel)
  obtain ⟨first, bare, come⟩ := of_decide_eq_true seen
  obtain ⟨_, _, lines, _, _, _, _, _, mapped, told⟩ := failure_told_at_statement {} .standard (alone againFlow) bundle _
    { id := "p1", flow := againFlow } program {} silence 60 1 ∅ _ after e (.ofBundle bundle) built load List.mem_cons_self rfl
    rfl (of_bundle_maps bundle) live failed
  obtain ⟨_, line, found, own⟩ := (mapped b.header 2).mp come
  refine ⟨bundle, program, e, after, b, lines, line, built, load, failed, live, blamed, found, own, ?_⟩
  rcases told with ⟨flow, n, main, kind, ran, found, unfit⟩ | ⟨same, traced, _, _, _, _, told⟩
  · have unblamed : blameProgram ⟨aloneHost bundle program, "p1"⟩ 60 program ∅ (.start (Execution.start {} bundle ())) = none := by
      simp only [blameProgram, aloneHost, ran, found, unfit]
    rw [unblamed] at blamed
    cases blamed
  · obtain rfl : b = same := Option.some.inj (blamed.symm.trans traced)
    rw [told first bare, come]

def lateFlow : List StepEntry :=
  [{ key := "if" }, { key := "Net.fetch" },
    { key := "elseIf", inputs := [{ key := "args1", value := .arr [.ofFields [("type", .str "var"), ("data", .str "missing")]] }] },
    { key := "Net.close" }, { key := "ifEnd" }]

theorem later_test_told_at_choice : ∃ bundle program e after b, (alone lateFlow).build {} .standard = .ok bundle ∧
    Loaded.ofBundle bundle = .ok ⟨bundle, ⟨[("p1", program)]⟩⟩ ∧
    program.run (aloneHost bundle program) "p1" 60 ∅ (Execution.start {} bundle ()) = .error (.error e) after ∧
    e.isHalted = false ∧
    blameProgram ⟨aloneHost bundle program, "p1"⟩ 60 program ∅ (.start (Execution.start {} bundle ())) = some b ∧
    (Breakpoints.ofBundle bundle).flowLine? "p1" b.header = some 3 ∧
    (failureReport {} (.ofBundle bundle) e).flowLine = some 1 := by
  obtain ⟨bundle, program, e, after, b, built, load, failed, live, blamed, seen⟩ := failed_such_that lateFlow
    (fun bundle e b => decide ((Breakpoints.ofBundle bundle).flowLine? "p1" b.header = some 3 ∧
      (failureReport {} (.ofBundle bundle) e).flowLine = some 1)) (by decide +kernel) (by decide +kernel)
  obtain ⟨come, told⟩ := of_decide_eq_true seen
  exact ⟨bundle, program, e, after, b, built, load, failed, live, blamed, come, told⟩

end

end Flowstep.Run
