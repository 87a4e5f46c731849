import Flowstep.Proofs.Nearest
import Flowstep.Proofs.Seconds
import Flowstep.Proofs.Services

/-!
The loop around a call that may be made again, round by round: what each round asks of the host and how it ends.
-/
namespace Flowstep.Code

open Flowstep.Flow (Step)
open Script (Expr Stmt StmtKind Target Value Error Machine Service Serves Stop Flow callCount pathExpr)
open Script.Interp

def ownNames (s : Step) : List String := [Context.counterName s, Context.errorName s]

def recordValue (c : Context) (s : Step) (status : String) (extra : List (String × Value)) : Value :=
  .map (.ofList ([("unit", .str c.unit), ("line", .int (Int64.ofInt s.line)), ("key", .str s.key),
    ("status", .str status)] ++ extra))

def startReport (c : Context) (s : Step) : Service := .report .info (recordValue c s "start" [])

def errorReport (c : Context) (s : Step) (e : Error) : Service :=
  .report .error (recordValue c s "error" [("error", .str e.kind.message)])

def retryReport (c : Context) (s : Step) (remaining : Nat) (e : Error) : Service :=
  .report .warn (recordValue c s "retry" [("remaining", .int (Int64.ofInt remaining)), ("error", .str e.kind.message)])

def pauses (s : Step) : List Service := if 0 < s.options.retryInterval then [.sleep] else []

def failedRound (c : Context) (s : Step) (remaining : Nat) (e : Error) : List Service :=
  [.call s.key, retryReport c s remaining e] ++ pauses s

def failedRounds (c : Context) (s : Step) : Nat → List Error → List Service
  | _, [] => []
  | left, e :: rest => failedRound c s (left - 1) e ++ failedRounds c s (left - 1) rest

def attempts (c : Context) (s : Step) (failures : List Error) : List Service :=
  startReport c s :: failedRounds c s s.options.retryCount failures ++ [.call s.key]

theorem name_heads (s : Step) {name : String} (other : ∀ c ∈ name.toList.head?, c ≠ '_') : name ∉ ownNames s := by
  have marked (front : String) (n : Nat) (starts : front.toList.head? = some '_') : name ≠ front ++ toString n ++ "__" := by
    rintro rfl
    rw [String.toList_append, String.toList_append, List.head?_append, List.head?_append, starts] at other
    exact other '_' rfl rfl
  intro listed
  simp only [ownNames, List.mem_cons, List.not_mem_nil, or_false] at listed
  rcases listed with same | same
  · exact marked "__retry_count_" s.line (by decide) same
  · exact marked "__e_" s.line (by decide) same

theorem counter_ne_error (s : Step) : Context.counterName s ≠ Context.errorName s := by
  intro same
  have chars := congrArg (fun name => name.toList.take 3) same
  simp [Context.counterName, Context.errorName] at chars

theorem record_runs {σ : Type} (c : Context) (s : Step) {ctx : Script.Context σ} (status : String)
    {extra : List (String × Expr × Value)} {m : Machine σ}
    (values : ∀ f ∈ extra, Settles (eval ctx · f.2.1) m (.ok f.2.2 m)) :
    Settles (eval ctx · (c.recordExpr s status (extra.map fun f => (textExpr f.1, f.2.1)))) m
      (.ok (recordValue c s status (extra.map fun f => (f.1, f.2.2))) m) := by
  have whole := settles_map ctx ([("unit", textExpr c.unit, .str c.unit),
    ("line", numberExpr s.line, .int (Int64.ofInt s.line)), ("key", textExpr s.key, .str s.key),
    ("status", textExpr status, .str status)] ++ extra) m (by
      refine List.forall_mem_append.mpr ⟨?_, values⟩
      simp only [List.forall_mem_cons, List.not_mem_nil, false_implies, implies_true, and_true]
      exact ⟨settles_lit ctx _ m, settles_lit ctx _ m, settles_lit ctx _ m, settles_lit ctx _ m⟩)
  exact whole

theorem path_dotted (root : String) (path : List String) : (pathExpr (root :: path)).dottedPath? = some (root :: path) := by
  have step (path done : List String) (e : Expr) (named : e.dottedPath? = some done) :
      (path.foldl Expr.attr e).dottedPath? = some (done ++ path) := by
    induction path generalizing e done with
    | nil => simpa using named
    | cons word rest ih =>
      have longer : (Expr.attr e word).dottedPath? = some (done ++ [word]) := by rw [Expr.dottedPath?, named]; rfl
      rw [List.foldl_cons, ih (done ++ [word]) _ longer, List.append_assoc]
      rfl
  exact step path [root] (.name root) rfl

theorem path_attr (root : String) {path : List String} (dotted : path ≠ []) :
    ∃ base method, pathExpr (root :: path) = .attr base method := by
  obtain ⟨front, last, rfl⟩ := List.eq_nil_or_concat path |>.resolve_left dotted
  exact ⟨front.foldl .attr (.name root), last, by simp [pathExpr]⟩

theorem counter_lowered {n : Nat} (fits : n < 2 ^ 63) :
    Script.binary .sub (.int (Int64.ofInt n)) (.int (Int64.ofInt 1)) = .ok (.int (Int64.ofInt (n - 1))) := by
  have low : (Int64.ofInt n).toInt = n := Int64.toInt_ofInt_of_le (by omega) (by omega)
  have one : (Int64.ofInt 1).toInt = 1 := by decide
  change Script.checkedInt ((Int64.ofInt n).toInt - (Int64.ofInt 1).toInt) = _
  rw [low, one, Script.checkedInt, Word.ofInt?, if_pos ⟨by rw [Word.least]; omega, by rw [Word.greatest]; omega⟩]

def attemptKind (target : Option Target) (call : Expr) : StmtKind :=
  match target with
  | none => .expr call
  | some t => .assign [t] call

def targetNames : Option Target → List String
  | some (.name n) => [n]
  | _ => []

def Holds {σ : Type} (target : Option Target) (v : Value) (m : Machine σ) : Prop :=
  match target with
  | some (.name n) => m.frames.lookup n = some v
  | some (.index _ index) => ∃ key, index = textExpr key ∧ m.world.globals.get? key = some v
  | none => True

-- What a retried call needs of the place where it runs. The call goes to the host, and its arguments have values that
-- do not depend on the variables of the loop.
structure RetryScope {σ : Type} (s : Step) (ctx : Script.Context σ) (origin : Machine σ) (values : List (String × Expr))
    (target : Option Target) (root : String) (path : List String) : Prop where
  report : Unbound "report" origin
  text : Unbound "str" origin
  sleep : Unbound "sleep" origin
  free : Unbound root origin
  key : keyPath s.key = root :: path
  dotted : path ≠ []
  foreign : root ∉ ownNames s
  host : root ≠ "gv" ∧ ¬(root = "report" ∧ path.length = 1)
  arguments : ∀ e ∈ values, Evaluates ctx origin (ownNames s) e.2
  place : ∀ object index, target = some (.index object index) →
    ∃ key, object = .name "gv" ∧ index = textExpr key ∧ origin.frames.lookup "gv" = none

abbrev Loops {σ : Type} (ctx : Script.Context σ) (origin : Machine σ) (s : Step) : List Service → List Error → Machine σ → Prop :=
  Stands ctx.host origin (ownNames s)

section

variable {σ : Type} {c : Context} {s : Step} {ctx : Script.Context σ} {origin : Machine σ}
  {outcome : Nat → Except Error Value} {values : List (String × Expr)} {target : Option Target} {root : String}
  {path : List String} {log : List Service} {handling : List Error} {m : Machine σ}

theorem seconds_literal (x : Float) : ∃ v, secondsExpr x = .lit v := by
  unfold secondsExpr
  split
  · exact ⟨_, rfl⟩
  · exact ⟨_, rfl⟩
  · exact ⟨_, rfl⟩

theorem options_evaluate (c : Context) (s : Step) (ctx : Script.Context σ) (origin : Machine σ) {own : List String} :
    ∀ e ∈ c.optionExprs s ++ [c.placeExpr s], Evaluates ctx origin own e.2 := by
  have seconds (x : Float) : Evaluates ctx origin own (secondsExpr x) := by
    obtain ⟨v, literal⟩ := seconds_literal x
    rw [literal]
    exact evaluates_lit v
  have optional (wanted : Prop) [Decidable wanted] (e : String × Expr) (holds : Evaluates ctx origin own e.2) :
      ∀ f ∈ if wanted then [e] else [], Evaluates ctx origin own f.2 := by
    split
    · simpa using holds
    · simp
  unfold Context.optionExprs
  simp only [List.forall_mem_append]
  refine ⟨⟨⟨⟨⟨?_, optional _ _ (seconds _)⟩, optional _ _ (seconds _)⟩, optional _ _ (evaluates_lit _)⟩,
    optional _ _ (evaluates_lit _)⟩, ?_⟩
  · cases s.options.onError with
    | exit => simp
    | retry => simpa [textExpr] using evaluates_lit _
    | skip => simpa [textExpr] using evaluates_lit _
  · have listed : Evaluates ctx origin own (.list [numberExpr s.line, textExpr c.unit]) :=
      evaluates_list (by simpa using ⟨evaluates_lit _, evaluates_lit _⟩)
    simpa [Context.placeExpr] using listed

variable {v : Value} {e : Error}

def Counts (s : Step) (n : Int) (m : Machine σ) : Prop :=
  m.frames.lookup (Context.counterName s) = some (.int (Int64.ofInt n))

def Tells (s : Step) (e : Error) (m : Machine σ) : Prop :=
  m.frames.lookup (Context.errorName s) = some (.str e.kind.message)

theorem counts_kept {n : Int} {m₁ : Machine σ} (counted : Counts s n m) (frames : m₁.frames = m.frames) : Counts s n m₁ := by
  rw [Counts, frames]
  exact counted

theorem tells_kept {m₁ : Machine σ} (told : Tells s e m) (frames : m₁.frames = m.frames) : Tells s e m₁ := by
  rw [Tells, frames]
  exact told

theorem rebinds_more (own more : List String) {f g : Script.Frames} (rebound : Script.Rebinds own f g) :
    Script.Rebinds (more ++ own) f g :=
  fun name foreign free => rebound name (fun listed => foreign (List.mem_append_right _ listed)) free

theorem locate_again (e : Error) (unit unit' : String) (line line' : Nat) :
    (e.locate unit line).locate unit' line' = e.locate unit line := by
  cases located : e.located <;> simp [Error.locate, located]

theorem locate_catchable (e : Error) (unit : String) (line : Nat) :
    (e.unwind.locate unit line).isCatchable = e.isCatchable := by
  simp [Error.isCatchable, Error.isHalted, Error.locate, Error.unwind]

theorem test_runs {n : Int} {truth : Bool} (m : Machine σ) (counted : Counts s n m)
    (compared : Script.compareValues .lt (.int (Int64.ofInt n)) (.int (Int64.ofInt 0)) = .ok truth) :
    Settles (eval ctx · (.cmp .lt (.name (Context.counterName s)) (numberExpr 0))) m (.ok (.bool truth) m) := by
  refine settles_succ (fun fuel => by rw [eval]) (settles_bind (settles_name ctx counted) (settles_bind (settles_lit ctx _ m) ?_))
  rw [compared]
  exact settles_fixed (pure (Value.bool truth)) m

def attemptOf (c : Context) (s : Step) (values : List (String × Expr)) (target : Option Target) : StmtKind :=
  attemptKind target (c.callWith s values)

def roundStmt (c : Context) (s : Step) (line after : Nat) (attempt : StmtKind) : Stmt :=
  ⟨line + 3, .tryBlock [⟨line + 4, attempt⟩, ⟨after, .break⟩] (some (c.retryHandler s (after + 1))) none⟩

theorem failure_text (scope : RetryScope s ctx origin values target root path)
    (stands : Loops ctx origin s log handling m) (told : Tells s e m) :
    Settles (eval ctx · (callOf "str" [.name (Context.errorName s)])) m (.ok (.str e.kind.message) m) :=
  settles_text_of ctx (stands_unbound stands (name_heads s (by decide)) scope.text) (settles_name ctx told)

-- When a handler is done with a failure, the run stands where it did but for what was asked for.
theorem handler_left (stands : Loops ctx origin s log (e :: origin.handling) m) :
    Loops ctx origin s log origin.handling { m with handling := m.handling.tail } :=
  { stands with handling := by rw [stands.handling]; rfl }

theorem failed_round_calls (c : Context) (s : Step) (n : Nat) (e : Error) (log : List Service) :
    callCount (log ++ failedRound c s n e) = callCount log + 1 := by
  have quiet : (pauses s).countP Service.isCall = 0 := by
    unfold pauses
    split <;> rfl
  rw [callCount, List.countP_append, failedRound, List.countP_append, quiet]
  rfl

theorem failed_rounds_called (c : Context) (s : Step) (n : Nat) (failures : List Error) (log : List Service) :
    callCount (log ++ failedRounds c s n failures) = callCount log + failures.length := by
  induction failures generalizing n log with
  | nil => rw [failedRounds, List.append_nil, List.length_nil, Nat.add_zero]
  | cons e rest ih =>
    rw [failedRounds, ← List.append_assoc, ih, failed_round_calls, List.length_cons]
    omega

theorem attempts_called (c : Context) (s : Step) (failures : List Error) :
    callCount (attempts c s failures) = failures.length + 1 := by
  have calls := failed_rounds_called c s s.options.retryCount failures [startReport c s]
  have none : callCount [startReport c s] = 0 := rfl
  rw [none, Nat.zero_add] at calls
  rw [attempts, callCount, List.countP_append]
  exact congrArg (· + 1) calls

def Fails (outcome : Nat → Except Error Value) : Nat → List Error → Prop
  | _, [] => True
  | i, e :: rest => outcome i = .error e ∧ e.isCatchable = true ∧ Fails outcome (i + 1) rest

variable (serves : Serves ctx.host origin.world s.key outcome)

include serves

theorem stands_alone {line : Nat} {kind : StmtKind} (ends : Machine σ → EStateM.Result Stop (Machine σ) Flow)
    (holds : Machine σ → Prop) (placed : ∀ m₂, locatedAt ctx.unit line (ends m₂) = ends m₂)
    (stands : Loops ctx origin s log handling m)
    (runs : ∀ m₁, Loops ctx origin s log handling m₁ → m₁.frames = m.frames →
      ∃ m₂, Settles (execKind ctx · line kind) m₁ (ends m₂) ∧ holds m₂) :
    ∃ m₂, Settles (execBlock ctx · [⟨line, kind⟩]) m (ends m₂) ∧ holds m₂ := by
  obtain ⟨m₂, ran, known⟩ := stands_statement serves stands line kind ends holds fun m₁ now same _ => runs m₁ now same
  rw [placed] at ran
  exact ⟨m₂, settles_block_single ctx ran, known⟩

theorem failure_lowers (line n : Nat) (fits : n < 2 ^ 63) (stands : Loops ctx origin s log handling m)
    (counted : Counts s n m) (told : Tells s e m) :
    ∃ m₁, Settles (exec ctx · ⟨line, .augAssign (.name (Context.counterName s)) .sub (numberExpr 1)⟩) m (.ok .normal m₁) ∧
      Loops ctx origin s log handling m₁ ∧ Counts s (n - 1) m₁ ∧ Tells s e m₁ := by
  obtain ⟨m₁, ran, now, frames⟩ := stands_lower serves stands line List.mem_cons_self counted (counter_lowered fits)
  refine ⟨m₁, ran, now, ?_, ?_⟩
  · rw [Counts, frames, Script.Frames.lookup_bind_self]
  · rw [Tells, frames, Script.Frames.lookup_bind_other _ _ _ _ (counter_ne_error s).symm, told]

variable (scope : RetryScope s ctx origin values target root path)

include scope

theorem retried_call (stands : Loops ctx origin s log origin.handling m) :
    ∃ m₁, Settles (eval ctx · (c.callWith s values)) m (replied (outcome (callCount log)) m₁) ∧
      Loops ctx origin s (log ++ [.call s.key]) origin.handling m₁ ∧
      Agree (ownNames s) m.frames m₁.frames := by
  obtain ⟨base, method, attr⟩ := path_attr root scope.dotted
  have named := path_dotted root path
  have joined := Context.key_path_join s.key
  have each : ∀ e ∈ values ++ c.optionExprs s ++ [c.placeExpr s], Evaluates ctx origin (ownNames s) e.2 := by
    rw [List.append_assoc]
    exact List.forall_mem_append.mpr ⟨scope.arguments, options_evaluate c s ctx origin⟩
  rw [scope.key] at joined
  unfold Context.callWith
  rw [attr] at named
  rw [scope.key, attr]
  exact stands_call serves stands named joined scope.free scope.foreign scope.host.1 scope.host.2 each

variable (line after : Nat)

theorem attempt_succeeds (stands : Loops ctx origin s log origin.handling m) (answer : outcome (callCount log) = .ok v) :
    ∃ m₁, Settles (exec ctx · ⟨line, attemptOf c s values target⟩) m (.ok .normal m₁) ∧
      Stands ctx.host origin (targetNames target ++ ownNames s) (log ++ [.call s.key]) origin.handling m₁ ∧
      Holds target v m₁ := by
  refine stands_statement serves stands line _ (.ok .normal) _ fun m₁ now _ _ => ?_
  obtain ⟨m₂, called, after, frames⟩ := retried_call (c := c) serves scope now
  rw [answer] at called
  have more := rebinds_more _ (targetNames target) after.rebound
  cases target with
  | none => exact ⟨m₂, settles_expr ctx line called, { after with rebound := more }, trivial⟩
  | some t =>
    cases t with
    | name n =>
      refine ⟨_, settles_assign ctx line called (settles_bind_name ctx n v m₂), ?_,
        Script.Frames.lookup_bind_self⟩
      exact { after with rebound := Script.rebinds_bind v more List.mem_cons_self }
    | index object index =>
      obtain ⟨key, rfl, rfl, free⟩ := scope.place object index rfl
      have unbound : m₂.frames.lookup "gv" = none :=
        after.rebound "gv" (name_heads s (by decide)) free
      refine ⟨_, settles_assign ctx line called (settles_bind_global ctx key v unbound), ?_,
        ⟨key, rfl, Dict.get?_insert_self _ _ _⟩⟩
      exact { after with reached := .globals _ _ _ after.reached, rebound := more }

theorem attempt_fails (stands : Loops ctx origin s log origin.handling m) (answer : outcome (callCount log) = .error e) :
    ∃ m₁, Settles (exec ctx · ⟨line, attemptOf c s values target⟩) m (.error (.error (e.unwind.locate ctx.unit line)) m₁) ∧
      Loops ctx origin s (log ++ [.call s.key]) origin.handling m₁ ∧
      Agree (ownNames s) m.frames m₁.frames := by
  refine stands_statement serves stands line _ (.error (.error e.unwind)) _ fun m₁ now same _ => ?_
  obtain ⟨m₂, called, after, agree⟩ := retried_call (c := c) serves scope now
  rw [answer] at called
  rw [same] at agree
  refine ⟨m₂, ?_, after, agree⟩
  cases target with
  | none => exact settles_expr_error ctx line called
  | some t => exact settles_assign_error ctx line [t] called

theorem round_succeeds (stands : Loops ctx origin s log origin.handling m) (answer : outcome (callCount log) = .ok v) :
    ∃ m₁, Settles (execBlock ctx · [roundStmt c s line after (attemptOf c s values target)]) m (.ok .break m₁) ∧
      Stands ctx.host origin (targetNames target ++ ownNames s) (log ++ [.call s.key]) origin.handling m₁ ∧
      Holds target v m₁ := by
  refine stands_alone serves (.ok .break) _ (fun _ => rfl) stands fun m₁ now _ => ?_
  obtain ⟨m₂, attempted, done, held⟩ := attempt_succeeds (c := c) serves scope (line + 4) now answer
  obtain ⟨m₃, stopped, still, holding⟩ := stands_statement serves done after .break (.ok .break)
    (fun m₃ => Stands ctx.host origin (targetNames target ++ ownNames s) (log ++ [.call s.key]) origin.handling m₃ ∧
      Holds target v m₃)
    fun m₃ then_ frames globals => ⟨m₃, settles_break ctx after m₃, then_, by unfold Holds at *; rwa [frames, globals]⟩
  refine ⟨m₃, settles_try ctx (line + 3) (.ok .break) nofun ?_, still, holding⟩
  exact settles_block_next ctx attempted (settles_block_single ctx stopped)

theorem round_halts (stands : Loops ctx origin s log origin.handling m)
    (answer : outcome (callCount log) = .error e) (halted : e.isCatchable = false) :
    ∃ m₁, Settles (execBlock ctx · [roundStmt c s line after (attemptOf c s values target)]) m
        (.error (.error (e.unwind.locate ctx.unit (line + 4))) m₁) ∧
      Loops ctx origin s (log ++ [.call s.key]) origin.handling m₁ := by
  refine stands_alone serves (.error _) _ (by simp [locatedAt, locate_again]) stands fun m₁ now _ => ?_
  obtain ⟨m₂, failed, done, _⟩ := attempt_fails serves scope (line + 4) now answer
  refine ⟨m₂, settles_try ctx (line + 3) (.error _) ?_ (settles_block_error ctx _ failed), done⟩
  rintro _ ⟨⟩
  exact (locate_catchable e ctx.unit (line + 4)).trans halted

theorem record_reported (method : String) (level : Report.Level) (status : String)
    (extra : List (String × Expr × Value)) (known : Report.Level.ofMethod? method = some level)
    (stands : Loops ctx origin s log handling m)
    (values : ∀ m₁, Loops ctx origin s log handling m₁ → m₁.frames = m.frames →
      ∀ f ∈ extra, Settles (eval ctx · f.2.1) m₁ (.ok f.2.2 m₁)) :
    ∃ m₁, Settles (exec ctx · ⟨line, .expr (Context.reportExpr method
        (c.recordExpr s status (extra.map fun f => (textExpr f.1, f.2.1))))⟩) m (.ok .normal m₁) ∧
      Loops ctx origin s
        (log ++ [.report level (recordValue c s status (extra.map fun f => (f.1, f.2.2)))]) handling m₁ ∧
      m₁.frames = m.frames :=
  stands_report serves stands line known scope.report (name_heads s (by decide))
    fun m₁ now frames => record_runs c s status (values m₁ now frames)

theorem handler_gives_up (stands : Loops ctx origin s log (e :: handling) m)
    (placed : e.located = true) (counted : Counts s 0 m) (told : Tells s e m) :
    ∃ m₁, Settles (execBlock ctx · (c.retryHandler s line).body) m (.error (.error e) m₁) ∧
      Loops ctx origin s (log ++ [errorReport c s e]) (e :: handling) m₁ := by
  have same (line : Nat) : e.locate ctx.unit line = e := by rw [Error.locate, if_pos placed]
  obtain ⟨m₁, lowered, now, counter, text⟩ := failure_lowers serves (line + 1) 0 (by decide) stands counted told
  have ended : ∃ m₂, Settles (exec ctx · ⟨line + 2, c.lastFailure s (line + 2)⟩) m₁
        (.error (.error (e.locate ctx.unit (line + 2))) m₂) ∧
      Loops ctx origin s (log ++ [errorReport c s e]) (e :: handling) m₂ := by
    refine stands_statement serves now (line + 2) _ (.error (.error e)) _ fun m₂ standsHere frames _ => ?_
    obtain ⟨m₃, reported, next, _⟩ := record_reported serves scope (line + 3) "error" .error "error"
      [("error", callOf "str" [.name (Context.errorName s)], .str e.kind.message)] rfl standsHere fun m₃ there same => by
        simpa using failure_text scope there (tells_kept text (same.trans frames))
    obtain ⟨m₄, raised, final⟩ := stands_statement serves next (line + 4) (.raise none) (.error (.error e)) _
      fun m₄ standsLast _ _ => ⟨m₄, settles_raise ctx (line + 4) standsLast.handling, standsLast⟩
    rw [locatedAt, same] at raised
    refine ⟨m₄, settles_when ctx (line + 2) (test_runs m₂ (counts_kept counter frames) rfl) rfl ?_, final⟩
    exact settles_block_next ctx reported (settles_block_single ctx raised)
  obtain ⟨m₂, ended, last⟩ := ended
  rw [same] at ended
  exact ⟨m₂, settles_block_next ctx lowered (settles_block_error ctx _ ended), last⟩

theorem round_handled (n : Nat) (result : Except Error Flow) (holds : Machine σ → Prop)
    (stands : Loops ctx origin s log origin.handling m) (answer : outcome (callCount log) = .error e)
    (catchable : e.isCatchable = true) (counted : Counts s n m)
    (handles : ∀ m₁, Loops ctx origin s (log ++ [.call s.key])
        (e.unwind.locate ctx.unit (line + 4) :: origin.handling) m₁ → Counts s n m₁ →
      Tells s (e.unwind.locate ctx.unit (line + 4)) m₁ →
      ∃ m₂, Settles (fun fuel => Script.Exec.observe (execBlock ctx fuel (c.retryHandler s (after + 1)).body)) m₁ (.ok result m₂) ∧
        holds { m₂ with handling := m₂.handling.tail }) :
    ∃ m₁, Settles (execKind ctx · (line + 3) (roundStmt c s line after (attemptOf c s values target)).kind) m
      (Script.Exec.ofResult result m₁) ∧ holds m₁ := by
  obtain ⟨m₁, failed, now, agree⟩ := attempt_fails serves scope (line + 4) stands answer
  obtain ⟨m₂, checked, standsHere, same, _⟩ := stands_checkpoint serves now (after + 1)
  obtain ⟨m₃, handled, known⟩ := handles (handlingOf (Context.errorName s) (e.unwind.locate ctx.unit (line + 4)) m₂)
    ⟨standsHere.reached, Script.rebinds_bind _ standsHere.rebound (List.mem_cons_of_mem _ List.mem_cons_self),
      standsHere.functions, by rw [handlingOf, standsHere.handling]⟩
    (by rw [Counts, handlingOf, Script.Frames.lookup_bind_other _ _ _ _ (counter_ne_error s), same,
      agree _ List.mem_cons_self, counted])
    (by rw [Tells, handlingOf, Script.Frames.lookup_bind_self])
  exact ⟨_, settles_handler ctx (line + 3) rfl ((locate_catchable e ctx.unit (line + 4)).trans catchable)
    (settles_block_error ctx _ failed) checked handled, known⟩

theorem round_exhausts (stands : Loops ctx origin s log origin.handling m)
    (answer : outcome (callCount log) = .error e) (catchable : e.isCatchable = true) (counted : Counts s 0 m) :
    ∃ m₁, Settles (execBlock ctx · [roundStmt c s line after (attemptOf c s values target)]) m
        (.error (.error (e.unwind.locate ctx.unit (line + 4))) m₁) ∧
      Loops ctx origin s (log ++ [.call s.key, errorReport c s e]) origin.handling m₁ := by
  refine stands_alone serves (.error _) _ (by simp [locatedAt, locate_again]) stands fun m₁ now frames => ?_
  refine round_handled serves scope line after 0 (.error _) _ now answer catchable (counts_kept counted frames)
    fun m₂ standsHere counter text => ?_
  obtain ⟨m₃, handled, done⟩ := handler_gives_up serves scope (after + 1) standsHere
    (by cases located : e.located <;> simp [Error.locate, Error.unwind]) counter text
  refine ⟨m₃, settles_observe handled, ?_⟩
  have left := handler_left done
  rwa [List.append_assoc] at left

theorem retry_enters (attempt : StmtKind) :
    ∃ m₁, Loops ctx origin s [startReport c s] origin.handling m₁ ∧ Counts s s.options.retryCount m₁ ∧
      ∀ r, Settles (execWhile ctx · true (line + 2) (.lit (.bool true)) [roundStmt c s line after attempt]) m₁ r →
        Settles (execBlock ctx · (c.retryStmts s line after attempt)) origin (locatedAt ctx.unit (line + 2) r) := by
  obtain ⟨m₁, reported, now, _⟩ := record_reported serves scope line "info" .info "start" [] rfl stands_origin
    (fun _ _ _ => by simp)
  obtain ⟨m₂, assigned, standsHere, frames⟩ := stands_assign serves now (line + 1)
    (.int (Int64.ofInt s.options.retryCount)) List.mem_cons_self
  obtain ⟨m₃, checked, standsThere, same, _⟩ := stands_checkpoint serves standsHere (line + 2)
  refine ⟨m₃, standsThere, ?_, fun r ends => ?_⟩
  · rw [Counts, same, frames, Script.Frames.lookup_bind_self]
  · have loop := settles_located ctx checked (settles_while ctx ends)
    exact settles_block_next ctx reported (settles_block_next ctx assigned (settles_block_single ctx loop))

variable (interval : s.options.retryInterval < 9007199254740992)

include interval

theorem stands_pauses (line : Nat) (stands : Loops ctx origin s log handling m) :
    ∃ m₁, Settles (execBlock ctx · (if 0 < s.options.retryInterval then
        [⟨line, .expr (callOf "sleep" [secondsExpr s.options.retryInterval])⟩] else [])) m (.ok .normal m₁) ∧
      Loops ctx origin s (log ++ pauses s) handling m₁ ∧ m₁.frames = m.frames := by
  unfold pauses
  by_cases positive : 0 < s.options.retryInterval
  · obtain ⟨_, v, seconds, literal, number⟩ := seconds_number positive (Decimal.exact_below positive interval)
    simp only [if_pos positive, literal]
    obtain ⟨m₁, slept, now, frames⟩ := stands_pause serves stands line scope.sleep (name_heads s (by decide)) number
    exact ⟨m₁, settles_block_single ctx slept, now, frames⟩
  · simp only [if_neg positive, List.append_nil]
    exact ⟨m, settles_block_nil ctx m, stands, rfl⟩

theorem handler_goes_on (line n : Nat) (fits : n + 1 < 2 ^ 63) (stands : Loops ctx origin s log handling m)
    (counted : Counts s (n + 1 : Nat) m) (told : Tells s e m) :
    ∃ m₁, Settles (execBlock ctx · (c.retryHandler s line).body) m (.ok .normal m₁) ∧
      Loops ctx origin s (log ++ [retryReport c s n e] ++ pauses s) handling m₁ ∧ Counts s n m₁ := by
  obtain ⟨m₁, lowered, now, counter, text⟩ := failure_lowers serves (line + 1) (n + 1) fits stands counted told
  have less : ((n + 1 : Nat) : Int) - 1 = n := by omega
  rw [less] at counter
  obtain ⟨m₂, passed, standsHere, frames⟩ := stands_statement serves now (line + 2) (c.lastFailure s (line + 2))
    (.ok .normal) (fun m₂ => Loops ctx origin s log handling m₂ ∧ m₂.frames = m₁.frames)
    fun m₂ standsHere frames _ => ⟨m₂, settles_unless ctx (line + 2)
      (test_runs m₂ (counts_kept counter frames) (Script.count_not_below n (by omega))) rfl, standsHere, frames⟩
  obtain ⟨m₃, reported, next, framesThen⟩ := record_reported serves scope (line + 5) "warn" .warn "retry"
    [("remaining", .name (Context.counterName s), .int (Int64.ofInt n)),
      ("error", callOf "str" [.name (Context.errorName s)], .str e.kind.message)] rfl standsHere fun m₃ there same => by
        simpa using ⟨settles_name ctx (counts_kept counter (same.trans frames)),
          failure_text scope there (tells_kept text (same.trans frames))⟩
  obtain ⟨m₄, paused, final, framesLast⟩ := stands_pauses serves scope interval (line + 6) next
  refine ⟨m₄, ?_, final, counts_kept counter (framesLast.trans (framesThen.trans frames))⟩
  exact settles_block_next ctx lowered (settles_block_next ctx passed
    (settles_block_next ctx reported paused))

theorem round_fails (line after n : Nat) (e : Error) (fits : n + 1 < 2 ^ 63)
    (stands : Loops ctx origin s log origin.handling m) (answer : outcome (callCount log) = .error e)
    (catchable : e.isCatchable = true) (counted : Counts s (n + 1 : Nat) m) :
    ∃ m₁, Settles (execBlock ctx · [roundStmt c s line after (attemptOf c s values target)]) m (.ok .normal m₁) ∧
      Loops ctx origin s (log ++ failedRound c s n e) origin.handling m₁ ∧ Counts s n m₁ := by
  refine stands_alone serves (.ok .normal) _ (fun _ => rfl) stands fun m₁ now frames => ?_
  refine round_handled serves scope line after (n + 1) (.ok .normal) _ now answer catchable
    (counts_kept counted frames) fun m₂ standsHere counter text => ?_
  obtain ⟨m₃, handled, done, left⟩ := handler_goes_on serves scope interval (after + 1) n fits standsHere counter text
  refine ⟨m₃, settles_observe handled, ?_, left⟩
  have left := handler_left done
  rwa [List.append_assoc, List.append_assoc] at left

-- The rounds of attempts that fail lead to a round that is as good as the first, with less left over.
theorem failed_rounds (line after n : Nat) {failures : List Error} (first : Bool) (fits : n < 2 ^ 63)
    (enough : failures.length ≤ n) (fails : Fails outcome (callCount log) failures)
    (stands : Loops ctx origin s log origin.handling m) (counted : Counts s n m) :
    ∃ again m₁, Loops ctx origin s (log ++ failedRounds c s n failures) origin.handling m₁ ∧
      Counts s (n - failures.length : Nat) m₁ ∧
      ∀ r, Settles (execWhile ctx · again (line + 2) (.lit (.bool true))
          [roundStmt c s line after (attemptOf c s values target)]) m₁ r →
        Settles (execWhile ctx · first (line + 2) (.lit (.bool true))
          [roundStmt c s line after (attemptOf c s values target)]) m r := by
  induction failures generalizing n first log m with
  | nil =>
    rw [failedRounds, List.append_nil]
    exact ⟨first, m, stands, counted, fun _ runs => runs⟩
  | cons e rest ih =>
    obtain ⟨failed, catchable, others⟩ := fails
    obtain _ | n := n
    · rw [List.length_cons] at enough
      omega
    obtain ⟨m₁, entered, now, frames⟩ := stands_round serves stands first (line + 2)
    obtain ⟨m₂, ran, standsHere, left⟩ := round_fails serves scope interval line after n e (by omega) now failed
      catchable (counts_kept counted frames)
    rw [← failed_round_calls c s n e log] at others
    obtain ⟨again, m₃, standsThere, remains, leads⟩ := ih n false (by omega) (Nat.le_of_succ_le_succ enough) others
      standsHere left
    refine ⟨again, m₃, ?_, ?_, fun r runs => settles_round ctx entered (settles_bind ran (leads r runs))⟩
    · rw [failedRounds, ← List.append_assoc]
      exact standsThere
    · rw [List.length_cons, Nat.add_sub_add_right]
      exact remains

variable {failures : List Error} (fits : s.options.retryCount < 2 ^ 63) (fails : Fails outcome 0 failures)

include fits fails

-- After the attempts that fail, one more round decides how the loop ends.
theorem retry_leads (line after : Nat) (enough : failures.length ≤ s.options.retryCount) :
    ∃ m₁, Loops ctx origin s (startReport c s :: failedRounds c s s.options.retryCount failures)
        origin.handling m₁ ∧
      outcome (callCount (startReport c s :: failedRounds c s s.options.retryCount failures)) = outcome failures.length ∧
      Counts s (s.options.retryCount - failures.length : Nat) m₁ ∧
      (∀ m₂, Settles (execBlock ctx · [roundStmt c s line after (attemptOf c s values target)]) m₁ (.ok .break m₂) →
        Settles (execBlock ctx · (c.retryStmts s line after (attemptOf c s values target))) origin (.ok .normal m₂)) ∧
      ∀ (e : Error) m₂, Settles (execBlock ctx · [roundStmt c s line after (attemptOf c s values target)]) m₁
          (.error (.error (e.unwind.locate ctx.unit (line + 4))) m₂) →
        Settles (execBlock ctx · (c.retryStmts s line after (attemptOf c s values target))) origin
          (.error (.error (e.unwind.locate ctx.unit (line + 4))) m₂) := by
  obtain ⟨m₁, now, counted, ends⟩ := retry_enters (c := c) serves scope line after (attemptOf c s values target)
  have none : callCount [startReport c s] = 0 := rfl
  rw [← none] at fails
  obtain ⟨again, m₂, standsHere, left, leads⟩ := failed_rounds serves scope interval line after s.options.retryCount true fits enough fails now counted
  obtain ⟨m₃, entered, standsThere, frames⟩ := stands_round serves standsHere again (line + 2)
  have calls := failed_rounds_called c s s.options.retryCount failures [startReport c s]
  rw [none, Nat.zero_add] at calls
  refine ⟨m₃, standsThere, congrArg outcome calls, counts_kept left frames, fun m₄ ran => ?_, fun e m₄ ran => ?_⟩
  · exact ends _ (leads _ (settles_round ctx entered (settles_bind ran (settles_fixed (pure Flow.normal) m₄))))
  · have whole := ends _ (leads _ (settles_round ctx entered (settles_error ran)))
    rwa [locatedAt] at whole

end

end Flowstep.Code
