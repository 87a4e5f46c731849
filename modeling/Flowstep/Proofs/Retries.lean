import Flowstep.Proofs.Headers
import Flowstep.Proofs.Retrying

/-!
A call that may be made again is made exactly as often as its options promise, whatever the host answers.
-/
namespace Flowstep.Code

open Flowstep.Flow (Step)
open Script (Expr Stmt Target Value Error Machine Host World Service Serves Reaches Binds Spells Written
  answered callCount isIdentifier)
open Script.Interp

-- The lines that make the call of a step again, with the place of its result: those of a step on its own, or those
-- before the header of a block over the result.
inductive Wraps (c : Context) (s : Step) (indent : Nat) : List Line → Option Target → Prop where
  | call (lines : List Line) (made : c.callLines s indent = .ok lines) (single : s.outputs.length ≤ 1) :
      Wraps c s indent lines (c.boundTo s).head?
  | branch (lines : List Line) (header : Line) (made : c.branchLines .call s indent = .ok (lines ++ [header])) :
      Wraps c s indent lines (some (.name (Context.resultName "exist_result" s)))
  | loop (lines : List Line) (header : Line) (made : c.loopLines .call s indent = .ok (lines ++ [header])) :
      Wraps c s indent lines (some (.name (Context.resultName "for_iterable" s)))

structure RetriedStep (c : Context) (s : Step) (values : List (String × Expr)) : Prop where
  debug : c.debug = false
  onError : s.options.onError = .retry
  again : 0 < s.options.retryCount
  count : s.options.retryCount < 2 ^ 63
  line : s.line < 2 ^ 63
  interval : s.options.retryInterval < 9007199254740992
  before : ReadableTime s.options.delayBefore
  after : ReadableTime s.options.delayAfter
  key : loadableKey s.key
  outputs : ∀ o ∈ s.outputs, isIdentifier o.target
  given : ∃ texts, Context.arguments s = .ok texts ∧ Given texts values

inductive Places : String → Option Target → Prop where
  | nowhere : Places "" none
  | at (text : String) (target : Target) (binds : Binds text target) : Places (text ++ " = ") (some target)

variable {c : Context} {s : Step} {values : List (String × Expr)}

theorem retried_step_retries (step : RetriedStep c s values) :
    c.retries s = true := by
  simp [Context.retries, Flow.Options.wantsRetry, step.debug, step.onError, step.again]

theorem assignment_places (c : Context) (single : s.outputs.length ≤ 1) (valid : ∀ o ∈ s.outputs, isIdentifier o.target) :
    Places (c.assignment s) (c.boundTo s).head? := by
  unfold Context.assignment Context.boundTo Context.targets
  cases outputs : s.outputs with
  | nil => exact .nowhere
  | cons o rest =>
    rw [outputs, List.length_cons] at single
    obtain rfl := List.eq_nil_of_length_eq_zero (show rest.length = 0 by omega)
    exact .at _ _ (Context.binds_target c (valid o (by rw [outputs]; exact List.mem_cons_self)))

variable {lines : List Line}

theorem header_wraps {indent : Nat} {name : String} {header : String → String} {last : Line} (retries : c.retries s = true)
    (named : isIdentifier ("__" ++ name ++ "_")) (marked : ("__" ++ name ++ "_").toList.head? = some '_')
    (made : c.headerLines s indent name header = .ok (lines ++ [last])) :
    ∃ place call, c.call s = .ok call ∧ lines = c.retryLines s indent (place ++ call) ∧
      Places place (some (.name (Context.resultName name s))) := by
  obtain ⟨call, called, made⟩ := bind_ok made
  rw [if_pos retries] at made
  have same := (List.append_inj' (Except.ok.inj made) rfl).1
  exact ⟨_, call, called, same.symm, .at _ _ (Script.binds_name _ (numbered_identifier _ s.line named marked))⟩

variable {target : Option Target}

theorem wraps_retry {indent : Nat} (retries : c.retries s = true) (valid : ∀ o ∈ s.outputs, isIdentifier o.target)
    (wraps : Wraps c s indent lines target) :
    ∃ place call, c.call s = .ok call ∧ lines = c.retryLines s indent (place ++ call) ∧ Places place target := by
  cases wraps with
  | call made single =>
    obtain ⟨call, called, made⟩ := bind_ok made
    rw [if_pos retries] at made
    exact ⟨_, call, called, (Except.ok.inj made).symm, assignment_places c single valid⟩
  | branch header made => exact header_wraps retries (by decide) (by decide) made
  | loop header made => exact header_wraps retries (by decide) (by decide) made

theorem written_attempt (level line : Nat) {place call : String} {target : Option Target} (origin : Option Nat) {e : Expr}
    (places : Places place target) (spells : Spells 0 7 call e) :
    ∃ next, Written level [⟨level, place ++ call, origin⟩] line next [⟨line, attemptKind target e⟩] := by
  refine ⟨line + (place ++ call).toList.count '\n' + 1, ?_⟩
  cases places with
  | nowhere =>
    exact Script.written_expr level origin rfl (Script.spells_loose spells)
  | «at» text t binds =>
    exact Script.written_assign_one level line _ text t call origin e rfl binds (Script.spells_denotes spells (by decide))

theorem wrapped_call_written (indent line : Nat) (step : RetriedStep c s values) (wraps : Wraps c s indent lines target) :
    ∃ after next, Written indent lines line next
      (c.retryStmts s line after (attemptKind target (c.callWith s values))) := by
  obtain ⟨place, call, made, rfl, places⟩ :=
    wraps_retry (retried_step_retries step) step.outputs wraps
  obtain ⟨texts, argued, given⟩ := step.given
  have spells := Context.spells_call c s texts values call argued made step.key given step.before step.after step.line
  obtain ⟨after, attempt⟩ := written_attempt (indent + 2) (line + 4) (some s.line) places spells
  exact ⟨after, _, c.written_retry s indent line after _ _ step.line step.count (readable_exact step.interval) attempt⟩

-- How statements at `line` end that make a call again, for every way the host may answer.
structure Promised {σ : Type} (c : Context) (s : Step) (ctx : Script.Context σ) (origin : Machine σ) (target : Option Target)
    (outcome : Nat → Except Error Value) (line : Nat) (stmts : List Stmt) : Prop where
  succeeds : ∀ failures v, Fails outcome 0 failures → failures.length ≤ s.options.retryCount →
    outcome failures.length = .ok v → ∃ m, Settles (execBlock ctx · stmts) origin (.ok .normal m) ∧
      Stands ctx.host origin (targetNames target ++ ownNames s) (attempts c s failures) origin.handling m ∧ Holds target v m
  exhausts : ∀ failures e, Fails outcome 0 failures → failures.length = s.options.retryCount →
    outcome failures.length = .error e → e.isHalted = false →
    ∃ m, Settles (execBlock ctx · stmts) origin (.error (.error (e.unwind.locate ctx.unit (line + 4))) m) ∧
      Stands ctx.host origin (ownNames s) (attempts c s failures ++ [errorReport c s e]) origin.handling m
  halts : ∀ failures e, Fails outcome 0 failures → failures.length ≤ s.options.retryCount →
    outcome failures.length = .error e → e.isHalted = true →
    ∃ m, Settles (execBlock ctx · stmts) origin (.error (.error (e.unwind.locate ctx.unit (line + 4))) m) ∧
      Stands ctx.host origin (ownNames s) (attempts c s failures) origin.handling m

theorem retry_promised {σ : Type} {ctx : Script.Context σ} {origin : Machine σ} {outcome : Nat → Except Error Value}
    {root : String} {path : List String} (line after : Nat) (step : RetriedStep c s values)
    (serves : Serves ctx.host origin.world s.key outcome) (scope : RetryScope s ctx origin values target root path) :
    Promised c s ctx origin target outcome line (c.retryStmts s line after (attemptKind target (c.callWith s values))) where
  succeeds failures v fails enough answer := by
    obtain ⟨m₁, now, reply, _, ends, _⟩ := retry_leads serves scope step.interval step.count fails line after enough
    obtain ⟨m₂, ran, done, held⟩ := round_succeeds serves scope line after now (reply.trans answer)
    exact ⟨m₂, ends m₂ ran, done, held⟩
  exhausts failures e fails enough answer running := by
    obtain ⟨m₁, now, reply, left, _, ends⟩ := retry_leads serves scope step.interval step.count fails line after (Nat.le_of_eq enough)
    rw [enough, Nat.sub_self] at left
    obtain ⟨m₂, ran, done⟩ := round_exhausts serves scope line after now (reply.trans answer)
      (by rw [Error.isCatchable, running]; rfl) left
    refine ⟨m₂, ends e m₂ ran, ?_⟩
    rw [attempts, List.append_assoc]
    exact done
  halts failures e fails enough answer stopped := by
    obtain ⟨m₁, now, reply, _, _, ends⟩ := retry_leads serves scope step.interval step.count fails line after enough
    obtain ⟨m₂, ran, done⟩ := round_halts serves scope line after now (reply.trans answer)
      (by rw [Error.isCatchable, stopped]; rfl)
    exact ⟨m₂, ends e m₂ ran, done⟩

theorem retried_call_keeps_promise {σ : Type} (c : Context) (s : Step) (indent line : Nat) (lines : List Line)
    (target : Option Target) (values : List (String × Expr)) (ctx : Script.Context σ) (origin : Machine σ)
    (outcome : Nat → Except Error Value) (root : String) (path : List String) (step : RetriedStep c s values)
    (wraps : Wraps c s indent lines target) (serves : Serves ctx.host origin.world s.key outcome)
    (scope : RetryScope s ctx origin values target root path) :
    ∃ next stmts, Written indent lines line next stmts ∧
      (indent = 0 → line = 1 → ∀ width, 1 ≤ width → Script.Program.parse (render width lines) = .ok ⟨stmts⟩) ∧
      (∀ failures, callCount (attempts c s failures) = failures.length + 1) ∧
      Promised c s ctx origin target outcome line stmts := by
  obtain ⟨after, next, written⟩ := wrapped_call_written indent line step wraps
  refine ⟨next, _, written, ?_, attempts_called c s, retry_promised line after
    step serves scope⟩
  rintro rfl rfl width wide
  refine Script.parse_written width wide ?_ written
  obtain ⟨place, call, _, rfl, _⟩ :=
    wraps_retry (retried_step_retries step) step.outputs wraps
  exact List.cons_ne_nil _ _

def recorder (outcome : Nat → Except Error Value) : Host (List Service) where
  checkpoint _ _ := pure ()
  callAtomic request w := answered (outcome (callCount w.host)) { w with host := w.host ++ [.call request.key] }
  report level record := modify fun w => { w with host := w.host ++ [.report level record] }
  sleep _ := modify fun w => { w with host := w.host ++ [.sleep] }
  print _ := pure ()

theorem recorder_reached (outcome : Nat → Except Error Value) (globals : Dict Value) (log : List Service)
    (w : World (List Service)) (reached : Reaches (recorder outcome) ⟨globals, []⟩ log w) : w.host = log := by
  induction reached with
  | start => rfl
  | checkpoint log w w' line scope _ ran ih =>
    cases ran
    exact ih
  | report log w w' level record _ ran ih =>
    cases ran
    exact congrArg (· ++ [.report level record]) ih
  | sleep log w w' seconds _ ran ih =>
    cases ran
    exact congrArg (· ++ [.sleep]) ih
  | print log w w' text _ ran ih =>
    cases ran
    exact ih
  | call log w w' request answer _ ran ih =>
    obtain rfl := Script.answered_world ran
    exact congrArg (· ++ [.call request.key]) ih
  | globals log w table _ ih => exact ih

theorem recorder_serves (outcome : Nat → Except Error Value) (globals : Dict Value) (key : String) :
    Serves (recorder outcome) ⟨globals, []⟩ key outcome where
  checkpoint _ w _ _ _ := ⟨w, rfl, rfl⟩
  report _ _ _ _ _ := ⟨_, rfl⟩
  sleep _ _ _ _ := ⟨_, rfl⟩
  call log w request reached _ := by
    rw [← recorder_reached outcome globals log w reached]
    exact ⟨_, rfl⟩

def pageStep : Step :=
  { key := "Net.fetch", line := 3
    inputs := [{ name := "size", title := "", value := [⟨.other, .int 3⟩], shown := true, parse := none }]
    outputs := [{ name := "", target := "page" }]
    options := { onError := .retry, retryCount := 2, retryInterval := 0.5 } }

def lost : Error := .ofKind (.atomic "lost")

def thirdTime (i : Nat) : Except Error Value := if i < 2 then .error lost else .ok (.int 7)

theorem page_step_retried : RetriedStep ⟨"p1", [], false⟩ pageStep (Context.argumentExprs pageStep) where
  debug := rfl
  onError := rfl
  again := by decide
  count := by decide
  line := by decide
  interval := by decide +kernel
  before := readable_below (by decide +kernel)
  after := readable_below (by decide +kernel)
  key := by decide
  outputs := by decide
  given := ⟨_, rfl, Context.arguments_given pageStep _ rfl (by decide)⟩

theorem page_fetched_at_last : ∃ lines stmts m, Context.callLines ⟨"p1", [], false⟩ pageStep 0 = .ok lines ∧
    Script.Program.parse (render 4 lines) = .ok ⟨stmts⟩ ∧
    Settles (execBlock ⟨recorder thirdTime, "p1"⟩ · stmts) (.start ⟨∅, []⟩) (.ok .normal m) ∧
    m.world.host = [startReport ⟨"p1", [], false⟩ pageStep,
      .call "Net.fetch", retryReport ⟨"p1", [], false⟩ pageStep 1 lost, .sleep,
      .call "Net.fetch", retryReport ⟨"p1", [], false⟩ pageStep 0 lost, .sleep, .call "Net.fetch"] ∧
    m.frames.lookup "page" = some (.int 7) := by
  have scope : RetryScope pageStep ⟨recorder thirdTime, "p1"⟩ (.start ⟨∅, []⟩) (Context.argumentExprs pageStep)
      (some (.name "page")) "Net" ["fetch"] := by
    refine ⟨⟨rfl, rfl⟩, ⟨rfl, rfl⟩, ⟨rfl, rfl⟩, ⟨rfl, rfl⟩, by decide, by decide, by decide, by decide, ?_, ?_⟩
    · intro e member
      obtain rfl := List.mem_singleton.mp member
      exact evaluates_lit _
    · intro object index same
      cases same
  obtain ⟨_, stmts, _, parsed, _, promised⟩ := retried_call_keeps_promise ⟨"p1", [], false⟩ pageStep 0 1 _ _ _
    ⟨recorder thirdTime, "p1"⟩ (.start ⟨∅, []⟩) thirdTime "Net" ["fetch"] page_step_retried (.call _ rfl (by decide))
    (recorder_serves thirdTime ∅ "Net.fetch") scope
  obtain ⟨m, ran, stands, held⟩ := promised.succeeds [lost, lost] (.int 7) ⟨rfl, rfl, rfl, rfl, trivial⟩ (by decide) rfl
  refine ⟨_, stmts, m, rfl, parsed rfl rfl 4 (by decide), ran, ?_, held⟩
  rw [recorder_reached thirdTime ∅ _ _ stands.reached]
  have pause : pauses pageStep = [.sleep] := by
    rw [pauses, if_pos (by decide +kernel)]
  simp only [attempts, failedRounds, failedRound, pause]
  rfl

def noticeStep : Step :=
  { key := "report.info", line := 3, options := { onError := .retry, retryCount := 1 } }

def noticeCall : String := "report.info(__on_error__=\"exit\", __in_retry__=True, __info__=[3, \"p1\"])"

theorem notice_step_retried : RetriedStep ⟨"p1", [], false⟩ noticeStep [] where
  debug := rfl
  onError := rfl
  again := by decide
  count := by decide
  line := by decide
  interval := by decide +kernel
  before := readable_below (by decide +kernel)
  after := readable_below (by decide +kernel)
  key := by decide
  outputs := by decide
  given := ⟨[], rfl, given_nil⟩

def endsUncalled : EStateM.Result Script.Stop (Machine (List Service)) Script.Flow → Bool
  | .ok .normal m => callCount m.world.host == 0
  | _ => false

theorem ends_uncalled {r : EStateM.Result Script.Stop (Machine (List Service)) Script.Flow} (ended : endsUncalled r = true) :
    ∃ m, r = .ok .normal m ∧ callCount m.world.host = 0 := by
  unfold endsUncalled at ended
  split at ended
  · rename_i m
    exact ⟨m, rfl, beq_iff_eq.mp ended⟩
  · cases ended

theorem report_key_is_not_called : loadableKey noticeStep.key ∧
    Unbound "report" (.start ⟨∅, []⟩ : Machine (List Service)) ∧
    ∃ lines stmts m, Context.callLines ⟨"p1", [], false⟩ noticeStep 0 = .ok lines ∧
      Script.Program.parse (render 4 lines) = .ok ⟨stmts⟩ ∧
      execBlock ⟨recorder fun _ => .ok .none, "p1"⟩ 40 stmts (.start ⟨∅, []⟩) = .ok .normal m ∧
      callCount m.world.host = 0 := by
  have called : Context.call ⟨"p1", [], false⟩ noticeStep = .ok noticeCall := by decide +kernel
  have made : Context.callLines ⟨"p1", [], false⟩ noticeStep 0 =
      .ok (Context.retryLines ⟨"p1", [], false⟩ noticeStep 0 noticeCall) := by decide +kernel
  have spells := Context.spells_call ⟨"p1", [], false⟩ noticeStep [] [] noticeCall rfl called notice_step_retried.key given_nil
    notice_step_retried.before notice_step_retried.after notice_step_retried.line
  have attempt := Script.written_expr 2 (some 3) (Script.ends_plain 5 _ (by decide))
    (Script.spells_loose spells)
  have written := Context.written_retry ⟨"p1", [], false⟩ noticeStep 0 1 6 noticeCall _ notice_step_retried.line
    notice_step_retried.count (readable_exact notice_step_retried.interval) attempt
  have parsed := Script.parse_written 4 (by decide) (List.cons_ne_nil _ _) written
  obtain ⟨m, ends, none⟩ := ends_uncalled (r := execBlock ⟨recorder fun _ => .ok .none, "p1"⟩ 40 (Context.retryStmts
    ⟨"p1", [], false⟩ noticeStep 1 6 (.expr (Context.callWith ⟨"p1", [], false⟩ noticeStep []))) (.start ⟨∅, []⟩)) (by decide +kernel)
  exact ⟨by decide, ⟨rfl, rfl⟩, _, _, m, made, parsed, ends, none⟩

end Flowstep.Code
