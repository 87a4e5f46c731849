import Flowstep.Proofs.FailureLines
import Flowstep.Proofs.Retries

/-!
A call that is to be skipped when it fails.
-/
namespace Flowstep.Run

open Act (emitCode haltIfStopped wait)
open Script (AtomicCall Error Host Stop Value World)

variable {ε : Type} (config : Config) (o : Surroundings ε)

def about (call : AtomicCall) (status : String) : List (String × Json) :=
  [("status", .str status), ("key", .str call.key), ("unit", .str call.unit),
    ("line", ((Request.ofCall (.ofSeconds config.callTimeout) call).info.item? 0).getD .null)]

def ask (sleep : Float → Act ε Unit) (call : AtomicCall) : Act ε (Except OperationError Json) := do
  delay sleep (call.kwarg? "__delay_before__")
  wait o.passing
  haltIfStopped
  if !((call.kwarg? "__in_retry__").map Value.truthy).getD false then emitCode .info (about config call "start")
  let result ← perform o (Request.ofCall (.ofSeconds config.callTimeout) call)
  haltIfStopped
  return result

def Skips (call : AtomicCall) : Prop := (call.kwarg? "__on_error__").map Value.display = some "skip"

instance : DecidablePred Skips := fun call =>
  inferInstanceAs (Decidable ((call.kwarg? "__on_error__").map Value.display = some "skip"))

def heed (sleep : Float → Act ε Unit) (call : AtomicCall) : Except OperationError Json → Act ε Value
  | .ok value => do
    if ((call.kwarg? "__print_result__").map Value.truthy).getD false then
      emitCode .info (about config call "result" ++ [("result", value)])
    delay sleep (call.kwarg? "__delay_after__")
    return .ofJson value
  | .error e =>
    if Skips call then do
      emitCode .warn (about config call "skip" ++ [("error", .str e.kind.message)])
      return .none
    else throw (Stop.ofKind e.kind)

theorem operate_asks (sleep : Float → Act ε Unit) (call : AtomicCall) :
    operate config o sleep call = ask config o sleep call >>= heed config sleep call := by
  unfold operate ask
  simp only [bind_assoc]
  split
  · simp only [bind_assoc]
    exact bind_congr fun _ => bind_congr fun _ => bind_congr fun _ => rfl
  · simp only [bind_assoc]
    exact bind_congr fun _ => bind_congr fun _ => rfl

def OperationFails (call : AtomicCall) (w : World (Execution ε)) (e : OperationError) (w' : World (Execution ε)) : Prop :=
  unitOf? call = none ∧
    serve o (haltIfStopped >>= fun _ => ask config o (fun seconds => serve o (sleep o seconds)) call) w = .ok (.error e) w'

def UnitFails (loaded : Loaded) (fuel depth : Nat) (call : AtomicCall) (w : World (Execution ε)) (e : Error)
    (w' : World (Execution ε)) : Prop :=
  ∃ id, unitOf? call = some id ∧
    serve o (haltIfStopped >>= fun _ => callUnit loaded (engineHost config o loaded fuel depth) fuel id call) w =
      .error (.error e) w'

def warned (call : AtomicCall) (e : OperationError) (w : World (Execution ε)) : World (Execution ε) :=
  { w with host := w.host.add .warn .code (.ofFields (about config call "skip" ++ [("error", .str e.kind.message)])) }

variable {config o} {loaded : Loaded} {fuel depth : Nat} {call : AtomicCall} {w w' : World (Execution ε)}

theorem operation_failure_heeded {e : OperationError} (fails : OperationFails config o call w e w') :
    (engineHost config o loaded fuel (depth + 1)).callAtomic call w =
      if Skips call then .ok .none (warned config call e w') else .error (Stop.ofKind e.kind) w' := by
  obtain ⟨outside, asked⟩ := fails
  have split : (engineHost config o loaded fuel (depth + 1)).callAtomic call =
      serve o (haltIfStopped >>= fun _ => ask config o (fun seconds => serve o (sleep o seconds)) call) >>=
        heed config (fun seconds => serve o (sleep o seconds)) call := by
    simp only [engineHost, callAtomic, outside, operate_asks, serve, bind_assoc]
  rw [split, Script.Interp.bind_runs asked]
  dsimp only [heed]
  split <;> rfl

theorem unit_failure_goes_on {e : Error} (fails : UnitFails config o loaded fuel depth call w e w') :
    (engineHost config o loaded fuel (depth + 1)).callAtomic call w = .error (.error e) w' := by
  obtain ⟨id, called, failed⟩ := fails
  rw [← failed]
  simp only [engineHost, callAtomic, called]

end Flowstep.Run

namespace Flowstep.Code

open Flowstep.Flow (Step)
open Script (Arm AtomicCall Error Expr Machine Spells Stmt StmtKind Stop Suite Target Value World Written WrittenArms
  isIdentifier)
open Script.Interp

variable {σ : Type} {ctx : Script.Context σ}

inductive Asks (e : Expr) : StmtKind → Prop where
  | expr : Asks e (.expr e)
  | assign (targets : List Target) : Asks e (.assign targets e)
  | choice (line : Nat) (body : List Stmt) (arms : List Arm) (otherwise : Option Suite) :
      Asks e (.ifChain (⟨line, e, body⟩ :: arms) otherwise)
  | loop (targets : List Target) (body : List Stmt) : Asks e (.forLoop targets e body)

variable {e : Expr} {m m₁ : Machine σ}

theorem asks_fails {kind : StmtKind} (line : Nat) {stop : Stop} (asks : Asks e kind)
    (failed : Settles (eval ctx · e) m (.error stop m₁)) : Settles (execKind ctx · line kind) m (.error stop m₁) := by
  cases asks with
  | expr => exact settles_expr_error ctx line failed
  | assign targets => exact settles_assign_error ctx line targets failed
  | choice =>
    exact settles_succ (fun fuel => by rw [execKind])
      (settles_succ (fun fuel => by rw [execArms]; exact if_neg (by decide)) (settles_error failed))
  | loop => exact settles_succ (fun fuel => by rw [execKind]) (settles_error failed)

def notIterable : Error := .ofKind (.type (.notIterable "NoneType"))

theorem unpacking_fails (line : Nat) {first second : Target} {others : List Target}
    (empty : Settles (eval ctx · e) m (.ok .none m₁)) :
    Settles (execKind ctx · line (.assign (first :: second :: others) e)) m (.error (.error notIterable) m₁) := by
  have unpacks (fuel : Nat) :
      assignAll ctx (fuel + 1) (first :: second :: others) .none = throw (Stop.error notIterable) := by
    rw [assignAll]
    · rfl
    · simp
    · simp
  exact settles_succ (fun fuel => by rw [execKind]) (settles_bind empty
    (settles_error (settles_succ unpacks (settles_fixed (throw (Stop.error notIterable)) m₁))))

theorem iteration_fails (line : Nat) {targets : List Target} (body : List Stmt)
    (empty : Settles (eval ctx · e) m (.ok .none m₁)) :
    Settles (execKind ctx · line (.forLoop targets e body)) m (.error (.error notIterable) m₁) := by
  refine settles_succ (fun fuel => by rw [execKind]) (settles_bind empty (settles_error ?_))
  exact settles_fixed (throw (Stop.error notIterable)) m₁

def Context.hold (c : Context) (name : String) (v : Value) (m : Machine σ) : Machine σ :=
  if c.globals.contains name then { m with world := { m.world with globals := m.world.globals.insert name v } }
  else { m with frames := m.frames.bind name v }

theorem hold_holds (c : Context) (name : String) (v : Value) (m : Machine σ) :
    Holds (some (c.targetAt name)) v (c.hold name v m) := by
  unfold Context.hold Context.targetAt
  split
  · exact ⟨name, rfl, Dict.get?_insert_self _ _ _⟩
  · exact Script.Frames.lookup_bind_self

variable {c : Context}

theorem output_bound (line : Nat) {name : String} {v : Value} (value : Settles (eval ctx · e) m (.ok v m₁))
    (table : c.globals.contains name → m₁.frames.lookup "gv" = none) :
    Settles (execKind ctx · line (.assign [c.targetAt name] e)) m (.ok .normal (c.hold name v m₁)) := by
  refine settles_assign ctx line value ?_
  unfold Context.hold Context.targetAt
  split
  · rename_i global
    exact settles_bind_global ctx name v (table global)
  · exact settles_bind_name ctx name v m₁

structure SkippedStep (c : Context) (s : Step) (values : List (String × Expr)) : Prop where
  onError : s.options.onError = .skip
  line : s.line < 2 ^ 63
  before : ReadableTime s.options.delayBefore
  after : ReadableTime s.options.delayAfter
  key : loadableKey s.key
  outputs : ∀ o ∈ s.outputs, isIdentifier o.target
  given : ∃ texts, Context.arguments s = .ok texts ∧ Given texts values

structure CallText (c : Context) (s : Step) (call : Expr) (indent line : Nat) : Prop where
  plain : ∀ lines, c.callLines s indent = .ok lines → ∃ next, Written indent lines line next [⟨line, c.bindingKind s call⟩]
  condition : ∀ header, c.branchLines .call s indent = .ok header → ∃ head, header = [head] ∧
    ∀ inside middle next inner others body arms otherwise, Script.Ends line head.text inside → inner ≠ [] →
      Written (indent + 1) inner inside middle body → WrittenArms indent others middle next arms otherwise →
      Written indent (head :: inner ++ others) line next [⟨line, .ifChain (⟨line, call, body⟩ :: arms) otherwise⟩]
  iterator : ∀ header, c.loopLines .call s indent = .ok header → ∃ head, header = [head] ∧
    ∀ inside next inner body, Script.Ends line head.text inside → inner ≠ [] →
      Written (indent + 1) inner inside next body →
      Written indent (head :: inner) line next [⟨line, .forLoop (c.itemsBound s) call body⟩]

variable {s : Step}

theorem skipped_once (c : Context) (skip : s.options.onError = .skip) : c.retries s = false := by
  simp [Context.retries, Flow.Options.wantsRetry, skip]

theorem skipped_call_text {values : List (String × Expr)} (indent line : Nat) (step : SkippedStep c s values) :
    CallText c s (c.callWith s values) indent line := by
  have once : ¬c.retries s = true := by simp [skipped_once c step.onError]
  obtain ⟨texts, argued, given⟩ := step.given
  have spells (call : String) (made : c.call s = .ok call) : Spells 0 7 call (c.callWith s values) :=
    Context.spells_call c s texts values call argued made step.key given step.before step.after step.line
  have spelled (call : String) (made : c.call s = .ok call) : Spells 0 0 call (c.callWith s values) :=
    Script.spells_loose (spells call made)
  constructor
  · intro lines made
    obtain ⟨call, called, made⟩ := bind_ok made
    rw [if_neg once] at made
    cases made
    exact ⟨_, Context.written_binding indent rfl step.outputs
      (spells call called)⟩
  · intro header made
    obtain ⟨call, called, made⟩ := bind_ok made
    rw [if_neg once] at made
    cases made
    refine ⟨_, rfl, fun inside middle next inner others body arms otherwise ends filled block clauses => ?_⟩
    exact Script.written_if _ (spelled call called) ends
      filled block clauses
  · intro header made
    obtain ⟨call, called, made⟩ := bind_ok made
    rw [if_neg once] at made
    cases made
    refine ⟨_, rfl, fun inside next inner body ends filled block => ?_⟩
    obtain ⟨first, others, texts, bound, each⟩ := c.item_pairs s step.outputs
    rw [texts] at ends ⊢
    rw [bound]
    exact Script.written_for _ each (spelled call called) ends filled block

structure CallScope (s : Step) (m : Machine σ) (root : String) (path : List String) : Prop where
  key : keyPath s.key = root :: path
  dotted : path ≠ []
  free : Unbound root m
  host : root ≠ "gv" ∧ ¬(root = "report" ∧ path.length = 1)

theorem call_answered {values : List (String × Expr)} {root : String} {path : List String} {keywords : List (String × Value)}
    (scope : CallScope s m root path)
    (arguments : Settles (evalKeywords ctx · (values ++ c.optionExprs s ++ [c.placeExpr s])) m (.ok keywords m₁)) :
    Settles (eval ctx · (c.callWith s values)) m (Script.Exec.mapError Error.unwind
      (.ofHost (ctx.host.callAtomic ⟨s.key, ⟨[], keywords⟩, ctx.unit, m₁.line⟩)) m₁) := by
  obtain ⟨base, method, attr⟩ := path_attr root scope.dotted
  have named := path_dotted root path
  have joined := Context.key_path_join s.key
  rw [attr] at named
  rw [scope.key] at joined
  unfold Context.callWith
  rw [scope.key, attr, ← joined]
  exact settles_operation ctx named scope.free scope.host.1 scope.host.2 arguments

theorem keywords_lookup {name text : String} {rest : List (String × Expr)} (fuel : Nat) {values : List (String × Expr)}
    (keywords : List (String × Value)) (m m₁ : Machine σ) (fresh : ∀ e ∈ values, e.1 ≠ name)
    (done : evalKeywords ctx fuel (values ++ (name, textExpr text) :: rest) m = .ok keywords m₁) :
    keywords.lookup name = some (.str text) := by
  induction values generalizing fuel keywords m with
  | nil =>
    cases fuel with
    | zero => cases done
    | succ fuel =>
      obtain ⟨v, k, value, done⟩ := bind_done done
      obtain ⟨others, k', _, done⟩ := bind_done done
      cases done
      obtain ⟨rfl, _⟩ := text_done value
      exact List.lookup_cons_self
  | cons e values ih =>
    obtain ⟨other, fresh⟩ := List.forall_mem_cons.mp fresh
    cases fuel with
    | zero => cases done
    | succ fuel =>
      obtain ⟨v, k, value, done⟩ := bind_done done
      obtain ⟨others, k', more, done⟩ := bind_done done
      cases done
      rw [List.lookup_cons, beq_false_of_ne other.symm]
      exact ih fuel others k fresh more

-- How a step ends at `m₁` whose call has an empty result. The outputs are bound if there is only one, a choice goes on with
-- its later clauses, and what takes the result apart fails.
structure EmptyRun (c : Context) (s : Step) (ctx : Script.Context σ) (call : Expr) (line : Nat) (m m₁ : Machine σ) : Prop where
  alone : s.outputs = [] → Settles (exec ctx · ⟨line, c.bindingKind s call⟩) m (.ok .normal m₁)
  output : ∀ o, s.outputs = [o] → (c.globals.contains o.target → m₁.frames.lookup "gv" = none) →
    Settles (exec ctx · ⟨line, c.bindingKind s call⟩) m (.ok .normal (c.hold o.target .none m₁)) ∧
      Holds (some (c.targetAt o.target)) .none (c.hold o.target .none m₁)
  several : 2 ≤ s.outputs.length →
    Settles (exec ctx · ⟨line, c.bindingKind s call⟩) m (.error (.error (notIterable.locate ctx.unit line)) m₁)
  condition : ∀ body arms otherwise r, Settles (execArms ctx · false arms otherwise) m₁ r →
    Settles (exec ctx · ⟨line, .ifChain (⟨line, call, body⟩ :: arms) otherwise⟩) m (locatedAt ctx.unit line r)
  iterator : ∀ body, Settles (exec ctx · ⟨line, .forLoop (c.itemsBound s) call body⟩) m
    (.error (.error (notIterable.locate ctx.unit line)) m₁)

theorem empty_run (c : Context) (s : Step) {call : Expr} {line : Nat} {m₂ : Machine σ}
    (checked : checkpoint ctx line m = .ok () m₁) (empty : Settles (eval ctx · call) m₁ (.ok .none m₂)) :
    EmptyRun c s ctx call line m m₂ where
  alone none := by
    rw [Context.bindingKind, none]
    exact settles_located ctx checked (settles_expr ctx line empty)
  output o single table := by
    rw [Context.bindingKind, Context.boundTo, single]
    exact ⟨settles_located ctx checked (output_bound line empty table),
      hold_holds c o.target .none m₂⟩
  several more := by
    obtain ⟨first, second, others, split⟩ : ∃ first second others, s.outputs = first :: second :: others := by
      cases outputs : s.outputs with
      | nil => simp [outputs] at more
      | cons first rest =>
        cases rest with
        | nil => simp [outputs] at more
        | cons second others => exact ⟨first, second, others, rfl⟩
    rw [Context.bindingKind, Context.boundTo, split]
    exact settles_located ctx checked (unpacking_fails line empty)
  condition body arms otherwise r others :=
    settles_located ctx checked (settles_otherwise ctx line empty rfl others)
  iterator body :=
    settles_located ctx checked (iteration_fails line body empty)

end Flowstep.Code

namespace Flowstep.Run

open Code (Asks CallScope CallText EmptyRun SkippedStep)
open Script (AtomicCall Error Expr Machine Value World)
open Script.Interp

-- The failure of an operation is skipped: it becomes an empty result, with which the step goes on unless it has to take it
-- apart. The failure of a unit is not.
theorem skipped_failure_outcome {ε : Type} (config : Config) (o : Surroundings ε) (loaded : Loaded) (fuel depth : Nat)
    (unit : String) (c : Code.Context) (s : Flow.Step) (values : List (String × Expr)) (root : String) (path : List String)
    (indent line : Nat) (keywords : List (String × Value)) (m m₁ m₂ : Machine (Execution ε))
    (step : SkippedStep c s values)
    (checked : Script.Interp.checkpoint ⟨engineHost config o loaded fuel (depth + 1), unit⟩ line m = .ok () m₁)
    (scope : CallScope s m₁ root path)
    (arguments : Settles (evalKeywords ⟨engineHost config o loaded fuel (depth + 1), unit⟩ ·
      (values ++ c.optionExprs s ++ [c.placeExpr s])) m₁ (.ok keywords m₂)) :
    CallText c s (c.callWith s values) indent line ∧
      ((∀ v ∈ values, v.1 ≠ "__on_error__") → Skips ⟨s.key, ⟨[], keywords⟩, unit, m₂.line⟩) ∧
      (∀ e w, OperationFails config o ⟨s.key, ⟨[], keywords⟩, unit, m₂.line⟩ m₂.world e w →
        if Skips ⟨s.key, ⟨[], keywords⟩, unit, m₂.line⟩ then
          EmptyRun c s ⟨engineHost config o loaded fuel (depth + 1), unit⟩ (c.callWith s values) line m
            { m₂ with world := warned config ⟨s.key, ⟨[], keywords⟩, unit, m₂.line⟩ e w }
        else ∀ kind, Asks (c.callWith s values) kind →
          Settles (exec ⟨engineHost config o loaded fuel (depth + 1), unit⟩ · ⟨line, kind⟩) m
            (.error (.error ((Error.ofKind e.kind).locate unit line)) { m₂ with world := w })) ∧
      ∀ e w, UnitFails config o loaded fuel depth ⟨s.key, ⟨[], keywords⟩, unit, m₂.line⟩ m₂.world e w →
        ∀ kind, Asks (c.callWith s values) kind →
          Settles (exec ⟨engineHost config o loaded fuel (depth + 1), unit⟩ · ⟨line, kind⟩) m
            (.error (.error (e.unwind.locate unit line)) { m₂ with world := w }) := by
  have answered := Code.call_answered scope arguments
  have raises (e : Error) (w : World (Execution ε)) (kind : Script.StmtKind) (asks : Asks (c.callWith s values) kind)
      (failed : (engineHost config o loaded fuel (depth + 1)).callAtomic ⟨s.key, ⟨[], keywords⟩, unit, m₂.line⟩ m₂.world =
        .error (.error e) w) :
      Settles (exec ⟨engineHost config o loaded fuel (depth + 1), unit⟩ · ⟨line, kind⟩) m
        (.error (.error (e.unwind.locate unit line)) { m₂ with world := w }) := by
    simp only [Script.Exec.mapError, Script.Exec.ofHost, failed] at answered
    exact settles_located _ checked (Code.asks_fails line asks answered)
  refine ⟨Code.skipped_call_text indent line step, fun fresh => ?_, fun e w fails => ?_, fun e w fails kind asks => ?_⟩
  · obtain ⟨enough, ends⟩ := arguments
    have told := ends enough (Nat.le_refl _)
    rw [Code.Context.optionExprs, step.onError, List.append_assoc] at told
    have known := Code.keywords_lookup enough keywords m₁ m₂ fresh told
    simp only [Skips, AtomicCall.kwarg?, known]
    rfl
  · have ends : (engineHost config o loaded fuel (depth + 1)).callAtomic _ m₂.world = _ := operation_failure_heeded fails
    split
    · rename_i skips
      rw [if_pos skips] at ends
      simp only [Script.Exec.mapError, Script.Exec.ofHost, ends] at answered
      exact Code.empty_run c s checked answered
    · rename_i exits
      rw [if_neg exits] at ends
      exact fun kind asks => raises _ w kind asks ends
  · exact raises e w kind asks (unit_failure_goes_on fails)

def missedStep : Flow.Step :=
  { key := "Net.fetch", line := 3
    inputs := [{ name := "size", title := "", value := [⟨.other, .int 3⟩], shown := true, parse := none }]
    outputs := [{ name := "", target := "page" }]
    options := { onError := .skip } }

def missedContext : Code.Context := ⟨"p1", ["page"], false⟩

def missedHost : Script.Host (Execution Unit) := engineHost {} silence ⟨default, ⟨[]⟩⟩ 0 1

def missedCall : AtomicCall :=
  ⟨"Net.fetch", ⟨[], [("size", .int 3), ("__on_error__", .str "skip"), ("__info__", .list [.int 3, .str "p1"])]⟩, "p1", 1⟩

theorem missed_step_skipped : SkippedStep missedContext missedStep (Code.Context.argumentExprs missedStep) where
  onError := rfl
  line := by decide
  before := Code.readable_below (by decide +kernel)
  after := Code.readable_below (by decide +kernel)
  key := by decide
  outputs := by decide
  given := ⟨_, rfl, Code.Context.arguments_given missedStep _ rfl (by decide)⟩

theorem missed_page_is_empty : ∃ lines stmt e w m, missedContext.callLines missedStep 0 = .ok lines ∧
    Script.Program.parse (Code.render 4 lines) = .ok ⟨[stmt]⟩ ∧
    OperationFails {} silence missedCall (Execution.start {} default ()) e w ∧
    Settles (exec ⟨missedHost, "p1"⟩ · stmt) (.start (Execution.start {} default ())) (.ok .normal m) ∧
    m.world.globals.get? "page" = some .none := by
  have arguments : Settles (evalKeywords ⟨missedHost, "p1"⟩ · (Code.Context.argumentExprs missedStep ++
      missedContext.optionExprs missedStep ++ [missedContext.placeExpr missedStep]))
      { Machine.start (Execution.start {} default ()) with line := 1 }
      (.ok missedCall.args.keywords { Machine.start (Execution.start {} default ()) with line := 1 }) := by
    have place := settles_list ⟨missedHost, "p1"⟩ (settles_items_cons _ (settles_lit _ (.int 3)
      { Machine.start (Execution.start {} default ()) with line := 1 }) (settles_items_cons _
        (settles_lit _ (.str "p1") _) (settles_items_nil _ _)))
    exact settles_keywords_cons _ _ (settles_lit _ (.int 3) _) (settles_keywords_cons _ _
      (settles_lit _ (.str "skip") _) (settles_keywords_cons _ _ place (settles_keywords_nil _ _)))
  have scope : CallScope missedStep { Machine.start (Execution.start {} default ()) with line := 1 } "Net" ["fetch"] :=
    ⟨by decide, by decide, ⟨rfl, rfl⟩, by decide⟩
  obtain ⟨text, policy, operation, _⟩ := skipped_failure_outcome {} silence ⟨default, ⟨[]⟩⟩ 0 0 "p1" missedContext missedStep _
    "Net" ["fetch"] 0 1 _ (.start (Execution.start {} default ())) _ _ missed_step_skipped rfl scope arguments
  obtain ⟨next, written⟩ := text.plain _ rfl
  have fails : OperationFails {} silence missedCall (Execution.start {} default ()) (.failed "lost") _ := ⟨rfl, rfl⟩
  have skipped := operation _ _ fails
  rw [if_pos (policy (by decide))] at skipped
  obtain ⟨ran, _⟩ := skipped.output _ rfl fun _ => rfl
  exact ⟨_, _, _, _, _, rfl, Script.parse_written 4 (by decide) (List.cons_ne_nil _ _) written, fails, ran, rfl⟩

def pairFlow : List Flow.StepEntry :=
  [{ key := "Net.fetch", inputs := [{ key := "__skip_err__", value := .str "skip" }]
     outputs := [{ key := "a", value := .str "a" }, { key := "b", value := .str "b" }] }, { key := "Net.close" }]

-- An empty result cannot be taken apart, so that the failure is not skipped.
theorem two_outputs_not_skipped : ∃ bundle program e after,
    (Project.alone pairFlow).build {} .standard = .ok bundle ∧
      Loaded.ofBundle bundle = .ok ⟨bundle, ⟨[("p1", program)]⟩⟩ ∧
      program.run (aloneHost bundle program) "p1" 60 ∅ (Execution.start {} bundle ()) = .error (.error e) after ∧
      e.isHalted = false ∧ e.kind.summary .en = "Type error: 'NoneType' object is not iterable" := by
  obtain ⟨bundle, program, e, after, _, built, load, failed, live, _, seen⟩ := failed_such_that pairFlow
    (fun _ e _ => decide (e.kind.summary .en = "Type error: 'NoneType' object is not iterable")) (by decide +kernel) (by decide +kernel)
  exact ⟨bundle, program, e, after, built, load, failed, live, of_decide_eq_true seen⟩

end Flowstep.Run
