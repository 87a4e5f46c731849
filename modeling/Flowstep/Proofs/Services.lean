import Flowstep.Proofs.Running

/-!
What a run asks of its host.
-/
namespace Flowstep.Script

variable {σ : Type}

inductive Service where
  | call (key : String)
  | report (level : Report.Level) (record : Value)
  | sleep

def Service.isCall : Service → Bool
  | .call _ => true
  | _ => false

def callCount (log : List Service) : Nat := log.countP Service.isCall

def answered (outcome : Except Error Value) (w : World σ) : EStateM.Result Stop (World σ) Value :=
  match outcome with
  | .ok v => .ok v w
  | .error e => .error (.error e) w

theorem answered_world {first second : Except Error Value} {w w' : World σ} (same : answered first w = answered second w') :
    w = w' := by
  cases first with
  | ok v =>
    cases second with
    | ok v' =>
      cases same
      rfl
    | error e' => cases same
  | error e =>
    cases second with
    | ok v' => cases same
    | error e' =>
      cases same
      rfl

-- The worlds that can come after `start`, each with the services asked for on the way. A script may also print and
-- change the project-wide variables, which no service shows.
inductive Reaches (host : Host σ) (start : World σ) : List Service → World σ → Prop where
  | start : Reaches host start [] start
  | checkpoint (log : List Service) (w w' : World σ) (line : Nat) (scope : Scope) (before : Reaches host start log w)
      (ran : host.checkpoint line scope w = .ok () w') : Reaches host start log w'
  | report (log : List Service) (w w' : World σ) (level : Report.Level) (record : Value)
      (before : Reaches host start log w) (ran : host.report level record w = .ok () w') :
      Reaches host start (log ++ [.report level record]) w'
  | sleep (log : List Service) (w w' : World σ) (seconds : Float) (before : Reaches host start log w)
      (ran : host.sleep seconds w = .ok () w') : Reaches host start (log ++ [.sleep]) w'
  | print (log : List Service) (w w' : World σ) (text : String) (before : Reaches host start log w)
      (ran : host.print text w = .ok () w') : Reaches host start log w'
  | call (log : List Service) (w w' : World σ) (request : AtomicCall) (outcome : Except Error Value)
      (before : Reaches host start log w) (ran : host.callAtomic request w = answered outcome w') :
      Reaches host start (log ++ [.call request.key]) w'
  | globals (log : List Service) (w : World σ) (table : Dict Value) (before : Reaches host start log w) :
      Reaches host start log { w with globals := table }

-- A host that takes every report and every pause, and whose operation `key` has the given outcomes, one after the other.
structure Serves (host : Host σ) (start : World σ) (key : String) (outcome : Nat → Except Error Value) : Prop where
  checkpoint : ∀ log w line scope, Reaches host start log w →
    ∃ w', host.checkpoint line scope w = .ok () w' ∧ w'.globals = w.globals
  report : ∀ log w level record, Reaches host start log w → ∃ w', host.report level record w = .ok () w'
  sleep : ∀ log w seconds, Reaches host start log w → ∃ w', host.sleep seconds w = .ok () w'
  call : ∀ log w request, Reaches host start log w → request.key = key →
    ∃ w', host.callAtomic request w = answered (outcome (callCount log)) w'

def Rebinds (own : List String) (f g : Frames) : Prop := ∀ name, name ∉ own → f.lookup name = none → g.lookup name = none

namespace Frames

theorem lookup_bind_self {f : Frames} {name : String} {v : Value} : (f.bind name v).lookup name = some v := by
  obtain ⟨base, inner⟩ := f
  cases inner with
  | nil => simp [bind, lookup, current]
  | cons frame rest => simp [bind, lookup, current]

theorem lookup_bind_other (f : Frames) (name other : String) (v : Value) (different : other ≠ name) :
    (f.bind name v).lookup other = f.lookup other := by
  obtain ⟨base, inner⟩ := f
  cases inner with
  | nil => simp [bind, lookup, current, Dict.get?_insert_of_ne _ different]
  | cons frame rest => simp [bind, lookup, current, Dict.get?_insert_of_ne _ different]

end Frames

variable {f : Frames} {name : String}

theorem rebinds_bind {own : List String} {g : Frames} (v : Value) (rebound : Rebinds own f g) (listed : name ∈ own) :
    Rebinds own f (g.bind name v) := by
  intro other foreign free
  rw [Frames.lookup_bind_other g name other v (fun same => foreign (same ▸ listed))]
  exact rebound other foreign free

namespace Interp

-- Where a run stands that began at `origin`: what it asked for so far and what it is handling. It has no new variables
-- but its own.
structure Stands (host : Host σ) (origin : Machine σ) (own : List String) (log : List Service) (handling : List Error)
    (m : Machine σ) : Prop where
  reached : Reaches host origin.world log m.world
  rebound : Rebinds own origin.frames m.frames
  functions : m.functions = origin.functions
  handling : m.handling = handling

section

variable {ctx : Context σ} {origin : Machine σ} {own : List String} {key : String} {outcome : Nat → Except Error Value}
  {log : List Service} {handling : List Error} {m : Machine σ}

theorem stands_origin : Stands ctx.host origin own [] origin.handling origin := ⟨.start, fun _ _ free => free, rfl, rfl⟩

variable {name : String}

theorem stands_unbound (stands : Stands ctx.host origin own log handling m) (foreign : name ∉ own)
    (free : Unbound name origin) : Unbound name m :=
  ⟨stands.rebound name foreign free.1, by rw [stands.functions]; exact free.2⟩

theorem stands_bind (v : Value) (stands : Stands ctx.host origin own log handling m) (listed : name ∈ own) :
    Stands ctx.host origin own log handling { m with frames := m.frames.bind name v } :=
  { stands with rebound := rebinds_bind v stands.rebound listed }

section

variable (serves : Serves ctx.host origin.world key outcome)
  (stands : Stands ctx.host origin own log handling m)

include serves stands

variable (line : Nat)

theorem stands_checkpoint :
    ∃ m₁, checkpoint ctx line m = .ok () m₁ ∧ Stands ctx.host origin own log handling m₁ ∧ m₁.frames = m.frames ∧
      m₁.world.globals = m.world.globals := by
  obtain ⟨w, ran, same⟩ := serves.checkpoint log m.world line ⟨ctx.unit, m.frames.current, m.frames.depth⟩ stands.reached
  refine ⟨{ m with line := line, world := w }, ?_,
    { stands with reached := .checkpoint log m.world w _ _ stands.reached ran }, rfl, same⟩
  change Exec.ofHost (ctx.host.checkpoint line ⟨ctx.unit, m.frames.current, m.frames.depth⟩) { m with line := line } = _
  simp only [Exec.ofHost, ran]

theorem stands_statement (kind : StmtKind) (ends : Machine σ → EStateM.Result Stop (Machine σ) Flow) (holds : Machine σ → Prop)
    (runs : ∀ m₁, Stands ctx.host origin own log handling m₁ → m₁.frames = m.frames →
      m₁.world.globals = m.world.globals → ∃ m₂, Settles (execKind ctx · line kind) m₁ (ends m₂) ∧ holds m₂) :
    ∃ m₂, Settles (exec ctx · ⟨line, kind⟩) m (locatedAt ctx.unit line (ends m₂)) ∧ holds m₂ := by
  obtain ⟨m₁, checked, standsNow, frames, globals⟩ := stands_checkpoint serves stands line
  obtain ⟨m₂, ran, known⟩ := runs m₁ standsNow frames globals
  exact ⟨m₂, settles_located ctx checked ran, known⟩

theorem stands_round (first : Bool) (line : Nat) :
    ∃ m₁, Enters ctx first line m m₁ ∧ Stands ctx.host origin own log handling m₁ ∧ m₁.frames = m.frames := by
  cases first with
  | true => exact ⟨m, rfl, stands, rfl⟩
  | false =>
    obtain ⟨m₁, checked, standsNow, frames, _⟩ := stands_checkpoint serves stands line
    exact ⟨m₁, checked, standsNow, frames⟩

variable {v : Value}

theorem stands_report {method : String} {level : Report.Level} {record : Expr}
    (known : Report.Level.ofMethod? method = some level) (free : Unbound "report" origin) (foreign : "report" ∉ own)
    (value : ∀ m₁, Stands ctx.host origin own log handling m₁ → m₁.frames = m.frames →
      Settles (eval ctx · record) m₁ (.ok v m₁)) :
    ∃ m₂, Settles (exec ctx · ⟨line, .expr (.call (.attr (.name "report") method) [record] [])⟩) m (.ok .normal m₂) ∧
      Stands ctx.host origin own (log ++ [.report level v]) handling m₂ ∧ m₂.frames = m.frames := by
  refine stands_statement serves stands line _ (.ok .normal) _ fun m₁ now frames _ => ?_
  obtain ⟨w, taken⟩ := serves.report log m₁.world level v now.reached
  refine ⟨{ m₁ with world := w }, ?_, { now with reached := .report log _ w level v now.reached taken }, frames⟩
  exact settles_expr ctx line (settles_report ctx known
    (stands_unbound now foreign free) (value m₁ now frames) taken)

theorem stands_pause {seconds : Float} (free : Unbound "sleep" origin) (foreign : "sleep" ∉ own)
    (number : v.asFloat? = some seconds) :
    ∃ m₂, Settles (exec ctx · ⟨line, .expr (.call (.name "sleep") [.lit v] [])⟩) m (.ok .normal m₂) ∧
      Stands ctx.host origin own (log ++ [.sleep]) handling m₂ ∧ m₂.frames = m.frames := by
  refine stands_statement serves stands line _ (.ok .normal) _ fun m₁ now frames _ => ?_
  obtain ⟨w, taken⟩ := serves.sleep log m₁.world seconds now.reached
  refine ⟨{ m₁ with world := w }, ?_, { now with reached := .sleep log _ w seconds now.reached taken }, frames⟩
  exact settles_expr ctx line (settles_sleep ctx
    (stands_unbound now foreign free) (settles_lit ctx v m₁) number taken)

theorem stands_assign (v : Value) (listed : name ∈ own) :
    ∃ m₂, Settles (exec ctx · ⟨line, .assign [.name name] (.lit v)⟩) m (.ok .normal m₂) ∧
      Stands ctx.host origin own log handling m₂ ∧ m₂.frames = m.frames.bind name v := by
  refine stands_statement serves stands line _ (.ok .normal) _ fun m₁ now frames _ => ?_
  refine ⟨{ m₁ with frames := m₁.frames.bind name v }, ?_, stands_bind v now listed, by rw [frames]⟩
  exact settles_assign ctx line (settles_lit ctx v m₁) (settles_bind_name ctx name v m₁)

theorem stands_lower {a b : Int64} (listed : name ∈ own) (bound : m.frames.lookup name = some (.int a))
    (lowered : binary .sub (.int a) (.int b) = .ok v) :
    ∃ m₂, Settles (exec ctx · ⟨line, .augAssign (.name name) .sub (.lit (.int b))⟩) m (.ok .normal m₂) ∧
      Stands ctx.host origin own log handling m₂ ∧ m₂.frames = m.frames.bind name v := by
  refine stands_statement serves stands line _ (.ok .normal) _ fun m₁ now frames _ => ?_
  refine ⟨{ m₁ with frames := m₁.frames.bind name v }, ?_, stands_bind v now listed, by rw [frames]⟩
  exact settles_lower ctx line (by rw [frames]; exact bound) lowered

end

def Agree (names : List String) (f g : Frames) : Prop := ∀ name ∈ names, g.lookup name = f.lookup name

def Evaluates (ctx : Context σ) (origin : Machine σ) (own : List String) (e : Expr) : Prop :=
  ∀ log m, Stands ctx.host origin own log origin.handling m → ∃ v m₁, Settles (eval ctx · e) m (.ok v m₁) ∧
    Stands ctx.host origin own log origin.handling m₁ ∧ Agree own m.frames m₁.frames

theorem agree_refl (names : List String) : Agree names f f := fun _ _ => rfl

theorem agree_trans {names : List String} {g h : Frames} (first : Agree names f g) (second : Agree names g h) :
    Agree names f h := fun name listed => (second name listed).trans (first name listed)

theorem evaluates_lit (v : Value) : Evaluates ctx origin own (.lit v) :=
  fun _ m stands => ⟨v, m, settles_lit ctx v m, stands, agree_refl own⟩

theorem evaluates_items {items : List Expr} (each : ∀ e ∈ items, Evaluates ctx origin own e)
    (stands : Stands ctx.host origin own log origin.handling m) :
    ∃ values m₁, Settles (evalItems ctx · items) m (.ok values m₁) ∧
      Stands ctx.host origin own log origin.handling m₁ ∧ Agree own m.frames m₁.frames := by
  induction items generalizing m with
  | nil => exact ⟨[], m, settles_items_nil ctx m, stands, agree_refl own⟩
  | cons e rest ih =>
    obtain ⟨here, others⟩ := List.forall_mem_cons.mp each
    obtain ⟨v, m₁, first, standsNow, same⟩ := here log m stands
    obtain ⟨values, m₂, second, standsThen, still⟩ := ih others standsNow
    exact ⟨v :: values, m₂, settles_items_cons ctx first second, standsThen, agree_trans same still⟩

theorem evaluates_list {items : List Expr} (each : ∀ e ∈ items, Evaluates ctx origin own e) :
    Evaluates ctx origin own (.list items) := by
  intro log m stands
  obtain ⟨values, m₁, listed, standsNow, same⟩ := evaluates_items each stands
  exact ⟨.list values, m₁, settles_list ctx listed, standsNow, same⟩

theorem evaluates_keywords {values : List (String × Expr)} (each : ∀ e ∈ values, Evaluates ctx origin own e.2)
    (stands : Stands ctx.host origin own log origin.handling m) :
    ∃ given m₁, Settles (evalKeywords ctx · values) m (.ok given m₁) ∧
      Stands ctx.host origin own log origin.handling m₁ ∧ Agree own m.frames m₁.frames := by
  induction values generalizing m with
  | nil => exact ⟨[], m, settles_keywords_nil ctx m, stands, agree_refl own⟩
  | cons e rest ih =>
    obtain ⟨here, others⟩ := List.forall_mem_cons.mp each
    obtain ⟨v, m₁, first, standsNow, same⟩ := here log m stands
    obtain ⟨given, m₂, second, standsThen, still⟩ := ih others standsNow
    exact ⟨(e.1, v) :: given, m₂, settles_keywords_cons ctx e.1 first second, standsThen,
      agree_trans same still⟩

def replied (outcome : Except Error Value) (m : Machine σ) : EStateM.Result Stop (Machine σ) Value :=
  match outcome with
  | .ok v => .ok v m
  | .error e => .error (.error e.unwind) m

theorem stands_call {base : Expr} {method root : String} {path : List String} {kwargs : List (String × Expr)}
    (serves : Serves ctx.host origin.world key outcome) (stands : Stands ctx.host origin own log origin.handling m)
    (named : (Expr.attr base method).dottedPath? = some (root :: path)) (same : Text.joinWith "." (root :: path) = key)
    (free : Unbound root origin) (foreign : root ∉ own) (other : root ≠ "gv")
    (service : ¬(root = "report" ∧ path.length = 1)) (each : ∀ e ∈ kwargs, Evaluates ctx origin own e.2) :
    ∃ m₁, Settles (eval ctx · (.call (.attr base method) [] kwargs)) m (replied (outcome (callCount log)) m₁) ∧
      Stands ctx.host origin own (log ++ [.call key]) origin.handling m₁ ∧ Agree own m.frames m₁.frames := by
  obtain ⟨given, m₁, evaluated, now, frames⟩ := evaluates_keywords each stands
  have called := settles_operation ctx named (stands_unbound stands foreign free)
    other service evaluated
  rw [same] at called
  obtain ⟨w, ran⟩ := serves.call log m₁.world ⟨key, ⟨[], given⟩, ctx.unit, m₁.line⟩ now.reached rfl
  refine ⟨{ m₁ with world := w }, ?_, { now with reached := .call log _ w _ _ now.reached ran }, frames⟩
  simp only [Exec.mapError, Exec.ofHost, ran] at called
  cases answer : outcome (callCount log) with
  | ok v =>
    simp only [answer] at called
    exact called
  | error e =>
    simp only [answer] at called
    exact called

end

end Interp

end Flowstep.Script
