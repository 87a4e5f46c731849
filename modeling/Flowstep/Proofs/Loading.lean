import Flowstep.Run.Engine
import Flowstep.Proofs.Overflow
import Flowstep.Proofs.ReadBack

/-!
Which compiled projects can be loaded.
-/
namespace Flowstep.Flow

variable {j : Json}

theorem field_finite {value : Json} {name : String} (number : j.finite) (found : j.field? name = some value) :
    value.finite := by
  cases j with
  | obj fields =>
    obtain ⟨before, after, split, _⟩ := List.lookup_eq_some_iff.mp found
    have number : Json.finiteFields fields.entries := number
    rw [split, Json.finite_fields_forall] at number
    exact number (name, value) (by simp)
  | null | bool _ | int _ | float _ | str _ | arr _ => cases found

theorem item_finite (number : j.finite) : (Fragment.ofItem j).data.finite := by
  unfold Fragment.ofItem
  cases found : (j.field? "data").or (j.field? "value") with
  | none => rfl
  | some value =>
    rcases Option.or_eq_some_iff.mp found with found | ⟨_, found⟩
    · exact field_finite number found
    · exact field_finite number found

theorem fragments_finite (number : j.finite) : ∀ f ∈ Fragment.ofValue j, f.data.finite := by
  have single : ∀ f ∈ [Fragment.mk .other j], f.data.finite := List.forall_mem_singleton.mpr number
  unfold Fragment.ofValue
  split
  · rename_i first rest
    have each : ∀ f ∈ (first :: rest).map Fragment.ofItem, f.data.finite := by
      intro f member
      obtain ⟨item, inside, rfl⟩ := List.mem_map.mp member
      exact item_finite ((Json.finite_items_forall).mp number item inside)
    split
    · dsimp only
      split
      · exact fun f member => each f (List.mem_of_mem_take member)
      · exact fun f member => each f (List.mem_of_mem_filter member)
    · exact single
  · exact single

theorem entry_inputs {line : Nat} {e : StepEntry} {s : Step} (made : Step.ofEntry line e = .ok s) :
    ∀ i ∈ s.inputs, ∃ entry ∈ e.inputs, Input.ofEntry entry = i := by
  obtain ⟨options, _, made⟩ := bind_ok made
  cases made
  intro i member
  obtain ⟨entry, kept, same⟩ := List.mem_map.mp member
  exact ⟨entry, List.mem_of_mem_filter kept, same⟩

end Flowstep.Flow

namespace Flowstep.Code

open Flowstep.Flow (Fragment Input InputEntry Variable)

theorem operand_literals_mem {fragments : List Fragment} : ∀ j ∈ operandLiterals fragments, ∃ f ∈ fragments, f.data = j := by
  intro j member
  unfold operandLiterals at member
  split at member
  · obtain ⟨f, inside, same⟩ := List.mem_map.mp member
    exact ⟨f, List.mem_of_mem_filter inside, same⟩
  · split at member
    · rename_i f _
      exact ⟨f, List.mem_singleton_self f, (List.mem_singleton.mp member).symm⟩
    · cases member

theorem operand_literals_finite {j : Json} (number : j.finite) :
    ∀ value ∈ operandLiterals (Fragment.ofValue j), value.finite := by
  intro value member
  obtain ⟨f, inside, rfl⟩ := operand_literals_mem value member
  exact Flow.fragments_finite number f inside

theorem input_literals_finite {e : InputEntry} (number : e.value.finite) :
    ∀ j ∈ inputLiterals (Input.ofEntry e), j.finite := by
  unfold inputLiterals
  split
  · rw [List.forall_mem_singleton]
    unfold heldValue
    dsimp only
    split
    · rfl
    · cases read : Json.parse? (Fragment.firstText (Input.ofEntry e).value) with
      | none => rfl
      | some j => exact Json.parsed_finite read
  · exact operand_literals_finite number

theorem variable_literals_finite {v : Variable} (number : v.value.finite) : ∀ j ∈ variableLiterals v, j.finite := by
  refine operand_literals_finite ?_
  unfold declaredValue
  split
  · rename_i s _
    split
    · cases read : Json.parse? s with
      | none => exact number
      | some j => exact Json.parsed_finite read
    · exact number
  · exact number

end Flowstep.Code

namespace Flowstep.Project

open Flowstep.Flow (Step StepEntry Statement Tables Window Variable blockSteps blockCalls)
open Code (Context Line NumbersFit Sound Use blockUses loadableKey namedInput namedVariable translateProgram)

structure NamedFlow (statements : List Statement) : Prop where
  keys : ∀ s ∈ blockCalls statements, loadableKey s.key
  inputs : ∀ s ∈ blockSteps statements, ∀ i ∈ s.shownInputs, namedInput i
  outputs : ∀ s ∈ blockSteps statements, ∀ o ∈ s.outputs, Script.isIdentifier o.target

instance : DecidablePred NamedFlow := fun statements =>
  decidable_of_iff ((∀ s ∈ blockCalls statements, loadableKey s.key) ∧
      (∀ s ∈ blockSteps statements, ∀ i ∈ s.shownInputs, namedInput i) ∧
      ∀ s ∈ blockSteps statements, ∀ o ∈ s.outputs, Script.isIdentifier o.target)
    ⟨fun ⟨keys, inputs, outputs⟩ => ⟨keys, inputs, outputs⟩, fun ⟨keys, inputs, outputs⟩ => ⟨keys, inputs, outputs⟩⟩

theorem flow_sound {tables : Tables} {window : Window} {entries : List StepEntry} {statements : List Statement}
    (parsed : flowStatements tables window entries = .ok statements) (short : entries.length < 2 ^ 63)
    (named : NamedFlow statements) (numbers : ∀ e ∈ entries, ∀ i ∈ e.inputs, i.value.finite) :
    Sound (blockUses statements) := by
  intro u member
  have comes := Code.block_uses_come statements u member
  have bounds := flow_step_bounds parsed _ comes.step
  obtain ⟨e, inside, line, _, made⟩ := flow_step_entry parsed _ comes.step
  have count := bounds.2.count
  constructor
  · exact ⟨fun i member => named.inputs _ comes.step i (comes.shown i member), named.outputs _ comes.step,
      fun called => named.keys _ (comes.call called), by omega, by omega⟩
  · refine ⟨fun i member => ?_, bounds.2.before, bounds.2.after, bounds.2.interval⟩
    obtain ⟨entry, given, rfl⟩ := Flow.entry_inputs made i (List.mem_of_mem_filter (comes.shown i member))
    exact Code.input_literals_finite (numbers e inside entry given)

theorem build_units_get {settings : Settings} {tables : Tables} {globals : List String} {entry : String}
    {entries : List UnitEntry} (processes modules : Nat) (units : Dict UnitCode) (titles : Dict (Dict String))
    {result : Dict UnitCode × Dict (Dict String)}
    (built : buildUnits settings tables globals entry processes modules units titles entries = .ok result) :
    (∀ id code, units.get? id = some code → result.1.get? id = some code) ∧
      ∀ u ∈ entries, ∃ stem code calls, result.1.get? u.id = some code ∧
        UnitCode.build settings tables globals (u.id == entry) stem u = .ok (code, calls) := by
  induction entries generalizing processes modules units titles with
  | nil =>
    cases built
    exact ⟨fun _ _ found => found, by simp⟩
  | cons u rest ih =>
    obtain ⟨⟨unitCode, calls⟩, unitBuilt, built⟩ := bind_ok built
    dsimp only at built
    split at built
    · cases built
    rename_i fresh
    obtain ⟨kept, others⟩ := ih _ _ _ _ built
    refine ⟨fun id code found => kept id code ?_, List.forall_mem_cons.mpr ⟨?_, others⟩⟩
    · have other : id ≠ u.id := by
        rintro rfl
        exact fresh (by rw [Dict.contains, found]; rfl)
      rw [Dict.get?_insert_of_ne _ other, found]
    · exact ⟨_, unitCode, calls, kept _ _ (Dict.get?_insert_self _ _ _), map_error_ok unitBuilt⟩

theorem entry_member {settings : Settings} {units : List UnitEntry} {entry : String}
    (found : entryOf settings units = .ok entry) : ∃ u ∈ units, u.id = entry := by
  unfold entryOf at found
  split at found
  · split at found
    · rename_i listed
      cases found
      obtain ⟨u, member, same⟩ := List.any_eq_true.mp listed
      exact ⟨u, member, beq_iff_eq.mp same⟩
    · cases found
  · dsimp only at found
    split at found
    · rename_i u named
      cases found
      exact ⟨u, List.mem_of_mem_filter (List.mem_of_find?_eq_some named), rfl⟩
    · rename_i u _ single
      cases found
      exact ⟨u, List.mem_of_mem_filter (single ▸ List.mem_singleton_self u), rfl⟩
    · cases found

theorem bundle_found {settings : Settings} {tables : Tables} {d : Document} {bundle : Bundle}
    (built : d.build settings tables = .ok bundle) :
    bundle.units.contains bundle.entry = true ∧ ∀ u ∈ d.units, ∃ stem code calls, bundle.units.get? u.id = some code ∧
      UnitCode.build settings tables (d.globals.map (·.name)) (u.id == bundle.entry) stem u = .ok (code, calls) := by
  obtain ⟨chosen, unitsBuilt, _⟩ := build_parts built
  obtain ⟨_, found⟩ := build_units_get _ _ _ _ unitsBuilt
  refine ⟨?_, found⟩
  obtain ⟨u, member, named⟩ := entry_member chosen
  obtain ⟨_, code, _, held, _⟩ := found u member
  simp [Dict.contains, ← named, held]

end Flowstep.Project

namespace Flowstep.Run

open Project (Bundle UnitCode)
open Script (Program)

theorem map_all_outcome {ε α β : Type} (f : α → Except ε β) (l : List α) :
    (∃ r, l.mapM f = .ok r) ∧ (∀ a ∈ l, ∃ b, f a = .ok b) ∨ ∃ a ∈ l, ∃ e, f a = .error e ∧ l.mapM f = .error e := by
  induction l with
  | nil => exact .inl ⟨⟨[], rfl⟩, by simp⟩
  | cons a rest ih =>
    rw [List.mapM_cons]
    cases first : f a with
    | error e => exact .inr ⟨a, List.mem_cons_self, e, first, rfl⟩
    | ok b =>
      rcases ih with ⟨⟨r, made⟩, each⟩ | ⟨other, member, e, failed, made⟩
      · exact .inl ⟨⟨b :: r, by rw [made]; rfl⟩, List.forall_mem_cons.mpr ⟨⟨b, first⟩, each⟩⟩
      · exact .inr ⟨other, List.mem_cons_of_mem _ member, e, failed, by rw [made]; rfl⟩

theorem load_outcome {bundle : Bundle} (present : bundle.units.contains bundle.entry = true) :
    (∃ loaded, Loaded.ofBundle bundle = .ok loaded) ∧
        (∀ e ∈ bundle.units.entries, ∃ program, Program.parse e.2.source = .ok program) ∨
      ∃ e ∈ bundle.units.entries, ∃ error, Program.parse e.2.source = .error error ∧
        Loaded.ofBundle bundle = .error (.load e.1 error) := by
  have start (r : Except StartError (List (String × Program)))
      (read : (bundle.units.entries.mapM fun e => do
        return (e.1, ← (Program.parse e.2.source).mapError (StartError.load e.1))) = r) :
      Loaded.ofBundle bundle = r.map fun programs => ⟨bundle, ⟨programs⟩⟩ := by
    unfold Loaded.ofBundle
    simp only [present]
    subst read
    rfl
  rcases map_all_outcome (fun e : String × UnitCode => do
    return (e.1, ← (Program.parse e.2.source).mapError (StartError.load e.1))) bundle.units.entries with
    ⟨⟨programs, made⟩, each⟩ | ⟨e, member, error, failed, made⟩
  · refine .inl ⟨⟨⟨bundle, ⟨programs⟩⟩, start _ made⟩, fun e member => ?_⟩
    obtain ⟨_, read⟩ := each e member
    obtain ⟨program, read, _⟩ := bind_ok read
    exact ⟨program, map_error_ok read⟩
  · cases read : Program.parse e.2.source with
    | ok program =>
      rw [read] at failed
      cases failed
    | error reason =>
      rw [read] at failed
      cases failed
      exact .inr ⟨e, member, reason, read, start _ made⟩

end Flowstep.Run

namespace Flowstep.Project

open Flowstep.Flow (Step StepEntry Statement Tables Window Variable blockSteps blockCalls)
open Code (Context Line NumbersFit Sound Use blockUses loadableKey namedInput namedVariable translateProgram)
open Script (Program)

structure Described (tables : Tables) (window : Window) (u : UnitEntry) : Prop where
  short : u.flow.length < 2 ^ 63
  named : ∀ statements, flowStatements tables window u.flow = .ok statements → NamedFlow statements
  params : ∀ v ∈ u.params, namedVariable v
  given : ∀ e ∈ u.flow, ∀ i ∈ e.inputs, i.value.finite
  declared : ∀ v ∈ u.params, v.value.finite

theorem process_reads {settings : Settings} {tables : Tables} (globals : List String) {isEntry : Bool} (stem : String)
    {u : UnitEntry} (code : UnitCode) (calls : List Step) (process : u.category = .process) (wide : 1 ≤ settings.indentWidth)
    (described : Described tables (unitWindow settings isEntry) u)
    (built : UnitCode.build settings tables globals isEntry stem u = .ok (code, calls)) :
    ∃ statements, flowStatements tables (unitWindow settings isEntry) u.flow = .ok statements ∧
      ∀ program, Program.parse code.source = .ok program ↔
        NumbersFit ⟨u.id, globals, settings.debug⟩ u.params statements ∧
          program = translateProgram ⟨u.id, globals, settings.debug⟩ u.params statements := by
  obtain ⟨statements, lines, parsed, made, source, _⟩ := build_process process built
  refine ⟨statements, parsed, fun program => ?_⟩
  have sound := flow_sound parsed described.short (described.named statements parsed) described.given
  rw [source]
  exact Code.program_reads wide made sound described.params
    (fun v member => Code.variable_literals_finite (described.declared v member)) program

-- The source of a process is read exactly when every number that is written there fits, and then it is the script that the
-- flow stands for. Nothing else keeps a project of such processes and readable modules from being loaded.
theorem compiled_project_loads (settings : Settings) (tables : Tables) (d : Document) (bundle : Bundle)
    (built : d.build settings tables = .ok bundle) (wide : 1 ≤ settings.indentWidth)
    (described : ∀ u ∈ d.units, u.category = .process → Described tables (unitWindow settings (u.id == bundle.entry)) u) :
    (∀ u ∈ d.units, u.category = .process → ∃ code statements, bundle.units.get? u.id = some code ∧
      flowStatements tables (unitWindow settings (u.id == bundle.entry)) u.flow = .ok statements ∧
      ∀ program, Program.parse code.source = .ok program ↔
        NumbersFit ⟨u.id, d.globals.map (·.name), settings.debug⟩ u.params statements ∧
          program = translateProgram ⟨u.id, d.globals.map (·.name), settings.debug⟩ u.params statements) ∧
    ((∀ u ∈ d.units, u.category = .module →
        ∃ program, Program.parse (Code.inject settings.indentWidth u.params u.source) = .ok program) →
      ((∃ unit error, Run.Loaded.ofBundle bundle = .error (.load unit error)) ↔
        ∃ u ∈ d.units, u.category = .process ∧ ∃ statements,
          flowStatements tables (unitWindow settings (u.id == bundle.entry)) u.flow = .ok statements ∧
          ¬NumbersFit ⟨u.id, d.globals.map (·.name), settings.debug⟩ u.params statements)) := by
  obtain ⟨present, found⟩ := bundle_found built
  have reads (u : UnitEntry) (inside : u ∈ d.units) (process : u.category = .process) (stem : String) (code : UnitCode)
      (calls : List Step) := process_reads (d.globals.map (·.name)) stem code calls
    process wide (described u inside process)
  refine ⟨fun u inside process => ?_, fun modules => ⟨?_, ?_⟩⟩
  · obtain ⟨stem, code, calls, held, unitBuilt⟩ := found u inside
    obtain ⟨statements, parsed, exactly⟩ := reads u inside process stem code calls unitBuilt
    exact ⟨code, statements, held, parsed, exactly⟩
  · rintro ⟨unit, error, failed⟩
    rcases Run.load_outcome present with ⟨⟨loaded, made⟩, _⟩ | ⟨⟨id, code⟩, member, reason, refused, _⟩
    · rw [made] at failed
      cases failed
    · obtain ⟨u, inside, _, stem, calls, unitBuilt⟩ := bundle_unit built id code member
      cases kind : u.category with
      | process =>
        obtain ⟨statements, parsed, exactly⟩ := reads u inside kind stem code calls unitBuilt
        refine ⟨u, inside, kind, statements, parsed, fun fits => ?_⟩
        rw [(exactly _).mpr ⟨fits, rfl⟩] at refused
        cases refused
      | module =>
        obtain ⟨program, read⟩ := modules u inside kind
        unfold UnitCode.build at unitBuilt
        simp only [kind] at unitBuilt
        cases unitBuilt
        rw [read] at refused
        cases refused
  · rintro ⟨u, inside, process, statements, parsed, bad⟩
    obtain ⟨stem, code, calls, held, unitBuilt⟩ := found u inside
    obtain ⟨again, parsedAgain, exactly⟩ := reads u inside process stem code calls unitBuilt
    obtain rfl : again = statements := Except.ok.inj (parsedAgain.symm.trans parsed)
    rcases Run.load_outcome present with ⟨_, each⟩ | ⟨e, _, reason, _, failed⟩
    · obtain ⟨before, after, split, _⟩ := List.lookup_eq_some_iff.mp held
      obtain ⟨program, read⟩ := each (u.id, code) (by rw [split]; simp)
      exact absurd ((exactly program).mp read).1 bad
    · exact ⟨e.1, reason, failed⟩

instance (tables : Tables) (window : Window) : DecidablePred (Described tables window) := fun u =>
  decidable_of_iff (u.flow.length < 2 ^ 63 ∧
      (match flowStatements tables window u.flow with
        | .ok statements => decide (NamedFlow statements)
        | .error _ => true) = true ∧
      (∀ v ∈ u.params, namedVariable v) ∧ (∀ e ∈ u.flow, ∀ i ∈ e.inputs, i.value.finite) ∧ ∀ v ∈ u.params, v.value.finite) (by
    constructor
    · rintro ⟨short, named, params, given, declared⟩
      refine ⟨short, fun statements parsed => ?_, params, given, declared⟩
      rw [parsed] at named
      exact of_decide_eq_true named
    · rintro ⟨short, named, params, given, declared⟩
      refine ⟨short, ?_, params, given, declared⟩
      split
      · rename_i statements parsed
        exact decide_eq_true (named statements parsed)
      · rfl)

theorem built_such_that (settings : Settings) (tables : Tables) (d : Document) (holds : Bundle → Bool)
    (computed : (match d.build settings tables with
      | .ok bundle => holds bundle
      | .error _ => false) = true) : ∃ bundle, d.build settings tables = .ok bundle ∧ holds bundle = true := by
  split at computed
  · rename_i bundle built
    exact ⟨bundle, built, computed⟩
  · cases computed

theorem default_window (isEntry : Bool) : unitWindow {} isEntry = {} := by cases isEntry <;> rfl

def alone (flow : List StepEntry) : Document where
  id := "alone"
  units := [{ id := "p1", flow }]

def computes (flow : List StepEntry) (holds : Bundle → Program → Bool) : Bool :=
  match (alone flow).build {} .standard, flowStatements .standard {} flow with
  | .ok bundle, .ok statements =>
    decide (bundle.units.entries.map Prod.fst = ["p1"] ∧ NumbersFit ⟨"p1", [], false⟩ [] statements) &&
      holds bundle (translateProgram ⟨"p1", [], false⟩ [] statements)
  | _, _ => false

theorem loaded_such_that {flow : List StepEntry} {holds : Bundle → Program → Bool}
    (described : Described .standard {} { id := "p1", flow }) (computed : computes flow holds = true) :
    ∃ bundle program, (alone flow).build {} .standard = .ok bundle ∧
      Run.Loaded.ofBundle bundle = .ok ⟨bundle, ⟨[("p1", program)]⟩⟩ ∧ holds bundle program = true := by
  unfold computes at computed
  split at computed
  · rename_i bundle statements built parsed
    obtain ⟨known, holds⟩ := Bool.and_eq_true_iff.mp computed
    obtain ⟨ids, fits⟩ := of_decide_eq_true known
    refine ⟨bundle, _, built, ?_, holds⟩
    obtain ⟨present, found⟩ := bundle_found built
    obtain ⟨stem, code, calls, held, unitBuilt⟩ := found _ List.mem_cons_self
    obtain ⟨again, parsedAgain, reads⟩ := process_reads [] stem code calls rfl (by decide)
      (by rw [default_window]; exact described) unitBuilt
    rw [default_window, parsed] at parsedAgain
    cases parsedAgain
    have read := (reads _).mpr ⟨fits, rfl⟩
    obtain ⟨⟨id, only⟩, single, rfl⟩ := List.map_eq_singleton_iff.mp ids
    have same : only = code := by
      change bundle.units.entries.lookup "p1" = some code at held
      rw [single] at held
      exact Option.some.inj held
    unfold Run.Loaded.ofBundle
    simp only [present, single, same, List.mapM_cons, read]
    rfl
  · cases computed

theorem parsed_of_ok {source : String} (ok : (Program.parse source).isOk = true) :
    ∃ program, Program.parse source = .ok program := by
  cases read : Program.parse source with
  | ok program => exact ⟨program, rfl⟩
  | error e =>
    rw [read] at ok
    cases ok

def fetchFlow (size : Json) (delay : String) : List StepEntry :=
  [{ key := "Net.fetch"
     inputs := [{ key := "size", value := .arr [.ofFields [("type", .str "other"), ("data", size)]] },
       { key := "owner", value := .arr [.ofFields [("type", .str "g_var"), ("data", .str "user")]] },
       { key := "__delay_before__", value := .str delay }]
     outputs := [{ key := "page", value := .str "page" }] }]

def scaleParams : List Variable := [{ name := "scale", value := .float 1e300, direction := .output }]

def fetchProject (size : Json) (delay : String) : Document where
  id := "fetches"
  units := [{ id := "p1", params := scaleParams, flow := fetchFlow size delay },
    { id := "m1", category := .module, source := "def main(args):\n    pass\n" }]

theorem outermost_numbers_load : ∃ bundle code program,
    (fetchProject (.int (-9223372036854775807)) "9223372036854774784").build {} .standard = .ok bundle ∧
      (∀ u ∈ (fetchProject (.int (-9223372036854775807)) "9223372036854774784").units, u.category = .process →
        Described .standard (unitWindow {} (u.id == bundle.entry)) u) ∧
      bundle.units.get? "p1" = some code ∧ Program.parse code.source = .ok program ∧
      ¬∃ unit error, Run.Loaded.ofBundle bundle = .error (.load unit error) := by
  obtain ⟨bundle, built, seen⟩ := built_such_that {} .standard
    (fetchProject (.int (-9223372036854775807)) "9223372036854774784") (fun bundle => bundle.entry == "p1") (by decide +kernel)
  have described : ∀ u ∈ (fetchProject (.int (-9223372036854775807)) "9223372036854774784").units, u.category = .process →
      Described .standard (unitWindow {} (u.id == bundle.entry)) u := by
    rw [beq_iff_eq.mp seen]
    decide +kernel
  obtain ⟨units, loads⟩ := compiled_project_loads {} .standard _ bundle built (by decide) described
  have fits (statements : List Statement)
      (parsed : flowStatements .standard {} (fetchFlow (.int (-9223372036854775807)) "9223372036854774784") = .ok statements) :
      NumbersFit ⟨"p1", [], false⟩ scaleParams statements := by
    have holds : (match flowStatements .standard {} (fetchFlow (.int (-9223372036854775807)) "9223372036854774784") with
      | .ok statements => decide (NumbersFit ⟨"p1", [], false⟩ scaleParams statements)
      | .error _ => true) = true := by decide +kernel
    rw [parsed] at holds
    exact of_decide_eq_true holds
  obtain ⟨code, statements, held, parsed, reads⟩ := units _ List.mem_cons_self rfl
  rw [default_window] at parsed
  refine ⟨bundle, code, _, built, described, held, (reads _).mpr ⟨fits statements parsed, rfl⟩, ?_⟩
  have modules : ∀ u ∈ (fetchProject (.int (-9223372036854775807)) "9223372036854774784").units, u.category = .module →
      ∃ program, Program.parse (Code.inject 4 u.params u.source) = .ok program := by
    refine List.forall_mem_cons.mpr ⟨fun module => (nomatch module), List.forall_mem_singleton.mpr fun _ => ?_⟩
    exact parsed_of_ok (by decide +kernel)
  rw [loads modules]
  rintro ⟨u, inside, process, others, parsed, bad⟩
  have all : ∀ u ∈ (fetchProject (.int (-9223372036854775807)) "9223372036854774784").units, u.category = .process →
      ∀ statements, flowStatements .standard {} u.flow = .ok statements →
        NumbersFit ⟨u.id, [], false⟩ u.params statements :=
    List.forall_mem_cons.mpr ⟨fun _ => fits, List.forall_mem_singleton.mpr fun process => (nomatch process)⟩
  rw [default_window] at parsed
  exact bad (all u inside process others parsed)

def leastWordProject : Document where
  id := "least"
  units := [{
    id := "p1"
    flow := [{
      key := "Net.fetch"
      inputs := [{
        key := "size"
        value := .arr [.ofFields [("type", .str "other"), ("data", .int (-9223372036854775808))]] }] }] }]

def notLoaded : Except Run.StartError Run.Loaded → Bool
  | .error (.load _ _) => true
  | _ => false

theorem not_loaded {loaded : Except Run.StartError Run.Loaded} (refused : notLoaded loaded = true) :
    ∃ unit error, loaded = .error (.load unit error) := by
  unfold notLoaded at refused
  split at refused
  · rename_i unit error
    exact ⟨unit, error, rfl⟩
  · cases refused

-- The least word is a number of a document, but it is written as the negation of a number that does not fit.
theorem least_word_not_loaded : ∃ bundle unit error, leastWordProject.build {} .standard = .ok bundle ∧
    (∀ u ∈ leastWordProject.units, u.category = .process →
      Described .standard (unitWindow {} (u.id == bundle.entry)) u) ∧
    Run.Loaded.ofBundle bundle = .error (.load unit error) := by
  obtain ⟨bundle, built, seen⟩ := built_such_that {} .standard leastWordProject
    (fun bundle => bundle.entry == "p1" && notLoaded (Run.Loaded.ofBundle bundle)) (by decide +kernel)
  obtain ⟨entry, refused⟩ := Bool.and_eq_true_iff.mp seen
  obtain ⟨unit, error, failed⟩ := not_loaded refused
  refine ⟨bundle, unit, error, built, ?_, failed⟩
  rw [beq_iff_eq.mp entry]
  decide +kernel

end Flowstep.Project
