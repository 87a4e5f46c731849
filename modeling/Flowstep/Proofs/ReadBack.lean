import Flowstep.Proofs.Numbering
import Flowstep.Proofs.Translation

/-!
A flow is compiled to text, and the text is loaded as the script that the flow stands for.
-/
namespace Flowstep.Flow

structure Bounded (o : Options) : Prop where
  count : o.retryCount < 2 ^ 32
  interval : o.retryInterval.isFinite
  before : o.delayBefore.isFinite
  after : o.delayAfter.isFinite

theorem option_number_finite {key text : String} {expected : Expected} {x : Float}
    (read : Options.number key text expected = .ok x) : x.isFinite := by
  unfold Options.number at read
  dsimp only at read
  split at read
  · cases read
    decide
  · split at read
    · split at read
      · rename_i number
        cases read
        exact (Bool.and_eq_true_iff.mp number).1
      · cases read
    · cases read

theorem set_bounded {o done : Options} {key : String} {value : Json} (known : Bounded o)
    (set : o.set key value = .ok done) : Bounded done := by
  obtain ⟨count, interval, before, after⟩ := known
  unfold Options.set at set
  dsimp only at set
  split at set
  · split at set
    · cases set
      exact ⟨count, interval, before, after⟩
    · cases set
  · obtain ⟨x, _, set⟩ := bind_ok set
    cases set
    exact ⟨x.toUInt32.toNat_lt, interval, before, after⟩
  · obtain ⟨x, read, set⟩ := bind_ok set
    cases set
    exact ⟨count, option_number_finite read, before, after⟩
  · obtain ⟨x, read, set⟩ := bind_ok set
    cases set
    exact ⟨count, interval, option_number_finite read, after⟩
  · obtain ⟨x, read, set⟩ := bind_ok set
    cases set
    exact ⟨count, interval, before, option_number_finite read⟩
  · split at set <;> cases set <;> exact ⟨count, interval, before, after⟩
  · cases set
    exact ⟨count, interval, before, after⟩

theorem set_all_bounded {entries : List InputEntry} (o done : Options) (known : Bounded o)
    (read : entries.foldlM (fun o e => if Options.keys.contains e.key then o.set e.key e.value else .ok o) o = .ok done) :
    Bounded done := by
  induction entries generalizing o with
  | nil =>
    cases read
    exact known
  | cons e rest ih =>
    rw [List.foldlM_cons] at read
    obtain ⟨middle, here, read⟩ := bind_ok read
    refine ih middle ?_ read
    split at here
    · exact set_bounded known here
    · cases here
      exact known

theorem entry_bounded {line : Nat} {e : StepEntry} {s : Step} (read : Step.ofEntry line e = .ok s) : Bounded s.options := by
  obtain ⟨options, optioned, made⟩ := bind_ok read
  cases made
  exact set_all_bounded {} options ⟨by decide, by decide, by decide, by decide⟩ optioned

theorem steps_from_entries {window : Window} {entries : List StepEntry} (line : Nat) (steps : List Step)
    (read : stepsFrom window line entries = .ok steps) :
    ∀ s ∈ steps, ∃ e ∈ entries, ∃ place < line + entries.length, Step.ofEntry place e = .ok s := by
  induction entries generalizing line steps with
  | nil =>
    cases read
    simp
  | cons e rest ih =>
    rw [stepsFrom] at read
    rw [List.length_cons]
    split at read
    · intro s member
      obtain ⟨other, inside, place, below, made⟩ := ih (line + 1) steps read s member
      exact ⟨other, List.mem_cons_of_mem _ inside, place, by omega, made⟩
    · obtain ⟨first, single, read⟩ := bind_ok read
      obtain ⟨others, more, read⟩ := bind_ok read
      cases read
      intro s member
      rcases List.mem_cons.mp member with rfl | member
      · exact ⟨e, List.mem_cons_self, line, by omega, single⟩
      · obtain ⟨other, inside, place, below, made⟩ := ih (line + 1) others more s member
        exact ⟨other, List.mem_cons_of_mem _ inside, place, by omega, made⟩

end Flowstep.Flow

namespace Flowstep.Project

open Flowstep.Flow (Step StepEntry Statement Tables Window Variable blockSteps blockCalls)
open Code (Context Line LoadableStep ReadableUses loadableKey loadableVariable translateProgram)

variable {tables : Tables} {window : Window} {entries : List StepEntry} {statements : List Statement}

theorem flow_step_entry (parsed : flowStatements tables window entries = .ok statements) :
    ∀ s ∈ blockSteps statements, ∃ e ∈ entries, ∃ line ≤ entries.length, Step.ofEntry line e = .ok s := by
  obtain ⟨steps, read, kept⟩ := flow_steps parsed
  rw [kept]
  intro s member
  obtain ⟨e, inside, line, below, made⟩ :=
    Flow.steps_from_entries 1 steps read s (List.mem_of_mem_filter member)
  exact ⟨e, inside, line, by omega, made⟩

theorem flow_step_bounds (parsed : flowStatements tables window entries = .ok statements) :
    ∀ s ∈ blockSteps statements, s.line ≤ entries.length ∧ Flow.Bounded s.options := by
  intro s member
  obtain ⟨e, _, line, below, made⟩ := flow_step_entry parsed s member
  rw [(Flow.step_of_entry made).1]
  exact ⟨below, Flow.entry_bounded made⟩

theorem flow_text_reads_back (tables : Tables) (window : Window) (entries : List StepEntry)
    (statements : List Statement) (c : Context) (params : List Variable) (lines : List Line) (width : Nat)
    (parsed : flowStatements tables window entries = .ok statements) (made : Code.program c params statements = .ok lines)
    (short : entries.length < 2 ^ 63) (wide : 1 ≤ width) (keys : ∀ s ∈ blockCalls statements, loadableKey s.key)
    (steps : ∀ s ∈ blockSteps statements, LoadableStep s) (declared : ∀ v ∈ params, loadableVariable v) :
    Script.Program.parse (Code.render width lines) = .ok (translateProgram c params statements) ∧
      Script.blockNumbered 1 (lines.length + 1) (translateProgram c params statements).body := by
  have bounds := flow_step_bounds parsed
  have reads : ReadableUses c (Code.blockUses statements) := by
    intro u member
    have comes := Code.block_uses_come statements u member
    have bound := bounds _ comes.step
    have count := bound.2.count
    exact Code.loadable_use_readable c comes (steps _ comes.step) keys (by omega) (by omega)
  constructor
  · exact Script.parse_written width wide (Code.program_lines_present made)
      (Code.written_program made reads fun v member =>
        Code.loadable_variable_readable (declared v member))
  · rw [Code.program_length made]
    exact Code.program_numbered c params statements

theorem compiled_such_that (tables : Tables) (window : Window) (entries : List StepEntry) (c : Context)
    (params : List Variable) (holds : List Statement → List Line → Bool)
    (computed : (match flowStatements tables window entries with
      | .ok statements => match Code.program c params statements with
        | .ok lines => holds statements lines
        | .error _ => false
      | .error _ => false) = true) :
    ∃ statements lines, flowStatements tables window entries = .ok statements ∧
      Code.program c params statements = .ok lines ∧ holds statements lines = true := by
  split at computed
  · rename_i statements parsed
    split at computed
    · rename_i lines made
      exact ⟨statements, lines, parsed, made, computed⟩
    · cases computed
  · cases computed

def mixedFlow : List StepEntry :=
  [{ key := "forList"
     inputs := [{ key := "lists", value := .arr [.ofFields [("type", .str "var"), ("data", .str "rows")]] }]
     outputs := [{ value := .str "row" }] },
    { key := "Net.fetch"
      inputs := [{ key := "size", value := .arr [.ofFields [("type", .str "other"), ("data", .int 3)]] },
        { key := "__skip_err__", value := .str "retry" }, { key := "__retry_time__", value := .str "2" }]
      outputs := [{ value := .str "page" }] },
    { key := "forEnd" }, { key := "if" }, { key := "return" }, { key := "else" }, { key := "ifEnd" }, { key := "try" },
    { key := "Net.close" }]

def mixedParams : List Variable := [{ name := "rows", value := .str "a\nb", direction := .output }]

theorem mixed_flow_reads_back : ∃ statements lines,
    flowStatements .standard {} mixedFlow = .ok statements ∧
      Code.program ⟨"p1", [], false⟩ mixedParams statements = .ok lines ∧ lines.length = 30 ∧
      (∀ s ∈ blockCalls statements, loadableKey s.key) ∧ (∀ s ∈ blockSteps statements, LoadableStep s) ∧
      Script.Program.parse (Code.render 2 lines) = .ok (translateProgram ⟨"p1", [], false⟩ mixedParams statements) := by
  obtain ⟨statements, lines, parsed, made, seen⟩ := compiled_such_that .standard {} mixedFlow ⟨"p1", [], false⟩
    mixedParams (fun statements lines => decide (lines.length = 30 ∧ (∀ s ∈ blockCalls statements, loadableKey s.key) ∧
      ∀ s ∈ blockSteps statements, LoadableStep s)) (by decide +kernel)
  obtain ⟨counted, keys, steps⟩ := of_decide_eq_true seen
  exact ⟨statements, lines, parsed, made, counted, keys, steps, (flow_text_reads_back .standard {} mixedFlow statements _ _
    lines 2 parsed made (by decide) (by decide) keys steps (by decide)).1⟩

-- A number that is given as a text to be parsed is checked only as a text.
def parsedFlow (text : String) : List StepEntry :=
  [{ key := "Net.fetch", inputs := [{ key := "size", value := .str text, parse := some "json_str" }] }]

theorem parsed_number_not_read_back : ∃ statements lines,
    flowStatements .standard {} (parsedFlow "9223372036854775808") = .ok statements ∧
      Code.program ⟨"p1", [], false⟩ [] statements = .ok lines ∧
      (∀ s ∈ blockCalls statements, loadableKey s.key) ∧
      (∀ s ∈ blockSteps statements, ∀ i ∈ s.shownInputs, Script.isIdentifier i.name ∧ i.value.all Code.loadableFragment) ∧
      ¬∃ program, Script.Program.parse (Code.render 4 lines) = .ok program := by
  obtain ⟨statements, lines, parsed, made, seen⟩ := compiled_such_that .standard {} (parsedFlow "9223372036854775808")
    ⟨"p1", [], false⟩ [] (fun statements lines => decide ((∀ s ∈ blockCalls statements, loadableKey s.key) ∧
      (∀ s ∈ blockSteps statements, ∀ i ∈ s.shownInputs, Script.isIdentifier i.name ∧ i.value.all Code.loadableFragment) ∧
      (Script.Program.parse (Code.render 4 lines)).isOk = false)) (by decide +kernel)
  obtain ⟨keys, inputs, refused⟩ := of_decide_eq_true seen
  refine ⟨statements, lines, parsed, made, keys, inputs, ?_⟩
  rintro ⟨program, read⟩
  rw [read] at refused
  cases refused

end Flowstep.Project
