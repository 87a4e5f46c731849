import Flowstep.Proofs.Twins
import Flowstep.Run.Engine

/-!
Two runs side by side.
-/
namespace Flowstep.Run

open Script (Alike AtomicCall Bond Host Matches Program Scope Stop Twins Value World matches_bind matches_modify
  matches_pure matches_throw program_matches)

variable {ε δ α β : Type}

theorem execution_then (rest : Execution ε → Act ε α) (w : World (Execution ε)) :
    (Act.execution >>= rest) w = rest w.host w := rfl

theorem update_then (f : Execution ε → Execution ε) (rest : Unit → Act ε α) (w : World (Execution ε)) :
    (Act.update f >>= rest) w = rest () { w with host := f w.host } := rfl

theorem halt_then (rest : Unit → Act ε α) (w : World (Execution ε)) :
    (Act.haltIfStopped >>= rest) w =
      if w.host.panel.control.stopped then .error (Stop.ofKind .halted) w else rest () w := by
  have looks : Act.haltIfStopped w = (if w.host.panel.control.stopped then Act.halt else pure () : Act ε Unit) w := rfl
  change EStateM.bind Act.haltIfStopped rest w = _
  unfold EStateM.bind
  rw [looks]
  cases w.host.panel.control.stopped with
  | true => rfl
  | false => rfl

section

variable {config : Config} {o : Surroundings ε} {line : Nat} {scope : Scope} {w : World (Execution ε)}

theorem checkpoint_stopped (stopped : w.host.panel.control.stopped = true) :
    checkpoint config o line scope w = .error (Stop.ofKind .halted) w :=
  (halt_then _ w).trans (if_pos stopped)

variable (going : w.host.panel.control.stopped = false)

include going

theorem checkpoint_unmapped
    (out : config.debug = false ∨ w.host.panel.breakpoints.flowLine? scope.unit line = none) :
    checkpoint config o line scope w = .ok () w := by
  unfold checkpoint
  rw [halt_then, going, if_neg Bool.false_ne_true]
  rcases out with plain | unmapped
  · rw [plain]
    rfl
  · split
    · rw [execution_then, unmapped]
      rfl
    · rfl

variable {flowLine : Nat} (debug : config.debug = true)
  (mapped : w.host.panel.breakpoints.flowLine? scope.unit line = some flowLine)

include debug mapped

theorem checkpoint_passed (reason : reasonOf w.host scope.unit line = none) :
    checkpoint config o line scope w = .ok () { w with host := { w.host with entryPending := false } } := by
  unfold checkpoint
  rw [halt_then, going, debug, if_pos rfl, execution_then, mapped]
  rw [reason]
  rfl

theorem checkpoint_paused {due : Reason} (reason : reasonOf w.host scope.unit line = some due) :
    checkpoint config o line scope w =
      pause o ⟨scope.unit, flowLine, line, due, shownVariables w.globals scope.locals⟩
        { w with host := { w.host with entryPending := false } } := by
  unfold checkpoint
  rw [halt_then, going, debug, if_pos rfl, execution_then, mapped]
  rw [reason]
  rfl

end

def midway : Report.Kind → Bool
  | .paused | .resumed | .tip | .code => true
  | _ => false

-- What ties the states of two runs together: `near` as long as they run, `past` once they are force-stopped.
structure Tie (ε δ : Type) where
  near : Execution ε → Execution δ → Prop
  past : Execution ε → Execution δ → Prop
  ends : ∀ x y, near x y → past x y
  stopped : ∀ x y, near x y → x.panel.control.stopped = y.panel.control.stopped
  adds : ∀ x y level kind data, midway kind = true → near x y → near (x.add level kind data) (y.add level kind data)

def Tie.bond (t : Tie ε δ) : Bond (Execution ε) (Execution δ) where
  running w v := w.globals = v.globals ∧ t.near w.host v.host
  halted w v := w.globals = v.globals ∧ t.past w.host v.host
  ends _ _ tied := ⟨tied.1, t.ends _ _ tied.2⟩
  globals _ _ tied := tied.1
  assigns _ _ _ tied := ⟨rfl, tied.2⟩

namespace Tie

variable (t : Tie ε δ)

def Joins (p : Act ε α) (q : Act δ α) : Prop := Matches t.bond.running t.bond.halted p q

variable {t}

theorem joins_pure (a : α) : t.Joins (pure a) (pure a) := matches_pure a

theorem joins_throw {stop : Stop} : t.Joins (throw stop : Act ε α) (throw stop) := matches_throw t.bond.ends stop

variable {p : Act ε α} {q : Act δ α}

theorem joins_bind {f : α → Act ε β} {g : α → Act δ β} (first : t.Joins p q) (second : ∀ a, t.Joins (f a) (g a)) :
    t.Joins (p >>= f) (q >>= g) := matches_bind first second

theorem joins_execution {f : Execution ε → Act ε α} {g : Execution δ → Act δ α}
    (rest : ∀ x y, t.near x y → t.Joins (f x) (g y)) : t.Joins (Act.execution >>= f) (Act.execution >>= g) :=
  fun w v tied => rest w.host v.host tied.2 w v tied

theorem joins_update {f : Execution ε → Execution ε} {g : Execution δ → Execution δ}
    (keeps : ∀ x y, t.near x y → t.near (f x) (g y)) : t.Joins (Act.update f) (Act.update g) :=
  matches_modify fun _ _ tied => ⟨tied.1, keeps _ _ tied.2⟩

theorem joins_emit {level : Report.Level} {kind : Report.Kind} {data : Json} (inner : midway kind = true) :
    t.Joins (Act.emit level kind data) (Act.emit level kind data) :=
  joins_update fun x y near => t.adds x y level kind data inner near

theorem joins_tips {tips : List Package.Tip} :
    t.Joins (tips.forM fun tip => Act.emit .info .tip tip.toJson) (tips.forM fun tip => Act.emit .info .tip tip.toJson) := by
  induction tips with
  | nil => exact joins_pure _
  | cons tip rest ih => exact joins_bind (joins_emit rfl) fun _ => ih

theorem joins_halt : t.Joins (Act.halt : Act ε α) Act.halt := joins_throw

theorem joins_halt_if_stopped : t.Joins (Act.haltIfStopped : Act ε Unit) Act.haltIfStopped := by
  refine joins_execution fun x y near => ?_
  rw [t.stopped x y near]
  cases y.panel.control.stopped with
  | true => exact joins_halt
  | false => exact joins_pure ()

structure Outsides (t : Tie ε δ) (o : Surroundings ε) (u : Surroundings δ) : Prop where
  passing : ∀ x y, t.near x y → t.near (x.after o.passing) (y.after u.passing)
  sleeping : ∀ seconds x y, t.near x y → t.near (x.after (o.sleeping seconds)) (y.after (u.sleeping seconds))
  perform : ∀ request, t.Joins (perform o request) (perform u request)

section

variable {o : Surroundings ε} {u : Surroundings δ} (outsides : Outsides t o u)

include outsides

theorem joins_passing : t.Joins (Act.wait o.passing) (Act.wait u.passing) := joins_update outsides.passing

theorem joins_serve (inner : t.Joins p q) : t.Joins (serve o p) (serve u q) :=
  joins_bind (joins_passing outsides) fun _ => inner

theorem joins_sleep (seconds : Float) : t.Joins (sleep o seconds) (sleep u seconds) := by
  refine joins_bind joins_halt_if_stopped fun _ => ?_
  split
  · exact joins_bind (joins_update (outsides.sleeping _)) fun _ => joins_halt_if_stopped
  · exact joins_pure ()

omit outsides

theorem joins_delay {s : Float → Act ε Unit} {r : Float → Act δ Unit} (sleeps : ∀ seconds, t.Joins (s seconds) (r seconds))
    {seconds : Option Value} : t.Joins (delay s seconds) (delay r seconds) := by
  unfold delay
  split
  · exact sleeps _
  · exact joins_pure ()

theorem joins_emit_if {given : Bool} {level : Report.Level} {fields : List (String × Json)} (rest : t.Joins p q) :
    t.Joins
      (do
        if given then Act.emitCode level fields
        p)
      (do
        if given then Act.emitCode level fields
        q) := by
  cases given with
  | true => exact joins_bind (joins_emit rfl) fun _ => rest
  | false => exact rest

include outsides

theorem joins_operate (config : Config) (on off : Bool) {s : Float → Act ε Unit} {r : Float → Act δ Unit}
    (sleeps : ∀ seconds, t.Joins (s seconds) (r seconds)) (call : AtomicCall) :
    t.Joins (operate { config with debug := on } o s call) (operate { config with debug := off } u r call) := by
  refine joins_bind (joins_delay sleeps) fun _ => joins_bind (joins_passing outsides) fun _ => ?_
  refine joins_bind joins_halt_if_stopped fun _ => joins_emit_if (joins_bind (outsides.perform _) fun result => ?_)
  refine joins_bind joins_halt_if_stopped fun _ => ?_
  cases result with
  | ok value => exact joins_emit_if (joins_bind (joins_delay sleeps) fun _ => joins_pure _)
  | error e =>
    dsimp only
    split
    · exact joins_bind (joins_emit rfl) fun _ => joins_pure _
    · exact joins_throw

end

structure Sees (t : Tie ε δ) : Prop where
  panel : ∀ x y, t.near x y → x.panel = y.panel
  units : ∀ x y, t.near x y → x.units = y.units
  stepDepth : ∀ x y, t.near x y → x.stepDepth = y.stepDepth
  entryPending : ∀ x y, t.near x y → x.entryPending = y.entryPending

structure Pauses (t : Tie ε δ) (o : Surroundings ε) (u : Surroundings δ) : Prop where
  controls : ∀ f : Control → Control, (∀ c, (f c).stopped = c.stopped) → t.Joins (Act.setControl f) (Act.setControl f)
  steps : ∀ (f : Nat → Option Nat) x y, t.near x y →
    t.near { x with stepDepth := f x.units.length } { y with stepDepth := f y.units.length }
  waits : ∀ x y, t.near x y → t.near (x.after o.paused) (y.after u.paused)

section

variable {o : Surroundings ε} {u : Surroundings δ} (sees : t.Sees)

include sees

theorem joins_pause (pauses : t.Pauses o u) (p : Pause) : t.Joins (pause o p) (pause u p) := by
  refine joins_bind (pauses.controls _ fun _ => rfl) fun _ => joins_bind (joins_emit rfl) fun _ => ?_
  refine joins_bind (joins_update pauses.waits) fun _ => joins_execution fun x y near => ?_
  rw [sees.panel x y near]
  unfold resume
  split
  · exact joins_bind (pauses.controls _ fun _ => rfl) fun _ => joins_halt
  · split
    · exact joins_throw
    · refine joins_bind (pauses.controls _ fun _ => rfl) fun _ => joins_bind (joins_update fun x y near => ?_) fun _ => ?_
      · cases ‹Command› with
        | «continue» => exact pauses.steps (fun _ => none) x y near
        | next => exact pauses.steps (fun depth => some depth) x y near
      · exact joins_emit rfl

theorem joins_checkpoint
    (arrives : ∀ x y, t.near x y → t.near { x with entryPending := false } { y with entryPending := false })
    (pauses : ∀ p, t.Joins (pause o p) (pause u p)) (config : Config) (line : Nat) (scope : Scope) :
    t.Joins (checkpoint config o line scope) (checkpoint config u line scope) := by
  refine joins_bind joins_halt_if_stopped fun _ => ?_
  split
  · refine joins_execution fun x y near => ?_
    have reasons : reasonOf x scope.unit line = reasonOf y scope.unit line := by
      unfold reasonOf
      rw [sees.panel x y near, sees.units x y near, sees.stepDepth x y near, sees.entryPending x y near]
    rw [sees.panel x y near, reasons]
    cases y.panel.breakpoints.flowLine? scope.unit line with
    | none => exact joins_pure ()
    | some flowLine =>
      refine joins_bind (joins_update arrives) fun _ => ?_
      cases reasonOf y scope.unit line with
      | none => exact joins_pure ()
      | some reason =>
        intro w v tied
        let shown (globals : Dict Value) : Pause := ⟨scope.unit, flowLine, line, reason, shownVariables globals scope.locals⟩
        change Alike _ _ (pause o (shown w.globals) w) (pause u (shown v.globals) v)
        rw [tied.1]
        exact pauses _ w v tied
  · exact joins_pure ()

end

theorem joins_globals {h : Host (Execution ε)} {k : Host (Execution δ)} (twins : Twins t.bond h k) (fuel : Nat)
    (globals : List (String × String)) : t.Joins (loadGlobals h fuel globals) (loadGlobals k fuel globals) := by
  induction globals with
  | nil => exact joins_pure ()
  | cons entry rest ih =>
    unfold loadGlobals
    cases Program.parse ("gv[" ++ Json.quoted entry.1 ++ "] = " ++ entry.2 ++ "\n") with
    | error e => exact joins_throw
    | ok program => exact joins_bind (program_matches twins globalsUnit fuel program ∅) fun _ => ih

end Tie

-- The ties of two runs by the units that are active. A call goes one unit in, and its end comes back from it.
structure Nest (ε δ : Type) where
  tie : List String → Tie ε δ
  enters : ∀ active unit x y, (tie active).near x y → (tie (unit :: active)).near (x.enter unit) (y.enter unit)
  leaves : ∀ active unit x y, (tie (unit :: active)).near x y → (tie active).near x.leave y.leave
  quits : ∀ active unit x y, (tie (unit :: active)).past x y → (tie active).past x.leave y.leave

def Nest.flat (t : Tie ε δ) (enters : ∀ unit x y, t.near x y → t.near (x.enter unit) (y.enter unit))
    (leaves : ∀ x y, t.near x y → t.near x.leave y.leave) (quits : ∀ x y, t.past x y → t.past x.leave y.leave) :
    Nest ε δ where
  tie _ := t
  enters _ := enters
  leaves _ _ := leaves
  quits _ _ := quits

def hostWith (config : Config) (o : Surroundings ε) (loaded : Loaded) (fuel : Nat) (look : Nat → Scope → Act ε Unit) :
    Nat → Host (Execution ε)
  | 0 => engineHost config o loaded fuel 0
  | depth + 1 =>
    { engineHost config o loaded fuel (depth + 1) with
      checkpoint := fun line scope => serve o (look line scope)
      callAtomic := fun call =>
        serve o (callAtomic config o loaded (hostWith config o loaded fuel look depth) fuel
          (fun seconds => serve o (sleep o seconds)) call) }

variable (config : Config) (o : Surroundings ε) (loaded : Loaded)

theorem host_with_checkpoint (fuel depth : Nat) :
    hostWith config o loaded fuel (checkpoint config o) depth = engineHost config o loaded fuel depth := by
  induction depth with
  | zero => rfl
  | succ depth ih =>
    rw [hostWith, ih]
    rfl

namespace Nest

variable {n : Nest ε δ} {active : List String}

theorem joins_within {p : Act ε α} {q : Act δ α} {unit : String} (inner : (n.tie (unit :: active)).Joins p q) :
    (n.tie active).Joins (do Act.update (·.enter unit); Act.leaving p) (do Act.update (·.enter unit); Act.leaving q) := by
  intro w v tied
  have ends := inner { w with host := w.host.enter unit } { v with host := v.host.enter unit }
    ⟨tied.1, n.enters active unit _ _ tied.2⟩
  rw [update_then, update_then]
  unfold Act.leaving
  generalize p { w with host := w.host.enter unit } = left, q { v with host := v.host.enter unit } = right at ends
  cases ends with
  | ok a w v tied => exact .ok a _ _ ⟨tied.1, n.leaves active unit _ _ tied.2⟩
  | error stop w v going past =>
    refine .error stop _ _ (fun live => ?_) (fun dead => ?_)
    · exact ⟨(going live).1, n.leaves active unit _ _ (going live).2⟩
    · exact ⟨(past dead).1, n.quits active unit _ _ (past dead).2⟩

section

variable {h : Host (Execution ε)} {k : Host (Execution δ)} (twins : ∀ active, Twins (n.tie active).bond h k) (loaded : Loaded)
  (fuel : Nat)

include twins

theorem joins_unit (active : List String) (id : String) (call : AtomicCall) :
    (n.tie active).Joins (callUnit loaded h fuel id call) (callUnit loaded k fuel id call) := by
  unfold callUnit
  split
  · intro w v tied
    exact Tie.joins_bind (joins_within (program_matches (twins (id :: active)) id fuel _ _)) (fun _ => Tie.joins_pure _)
      w v tied
  · exact Tie.joins_throw

theorem joins_call (active : List String) (config : Config) (on off : Bool) {o : Surroundings ε} {u : Surroundings δ}
    (outsides : (n.tie active).Outsides o u) {s : Float → Act ε Unit} {r : Float → Act δ Unit}
    (sleeps : ∀ seconds, (n.tie active).Joins (s seconds) (r seconds)) (call : AtomicCall) :
    (n.tie active).Joins (callAtomic { config with debug := on } o loaded h fuel s call)
      (callAtomic { config with debug := off } u loaded k fuel r call) := by
  refine Tie.joins_bind Tie.joins_halt_if_stopped fun _ => ?_
  cases unitOf? call with
  | some id => exact joins_unit twins loaded fuel active id call
  | none => exact Tie.joins_operate outsides config on off sleeps call

-- The entry unit is entered and never left, so what holds in the end is what holds at every depth.
theorem joins_entry (active : List String) (args : Dict Value) {t : Tie ε δ} (near : ∀ active x y, (n.tie active).near x y → t.near x y)
    (past : ∀ active x y, (n.tie active).past x y → t.past x y) (w : World (Execution ε)) (v : World (Execution δ))
    (tied : (n.tie active).bond.running w v) :
    Alike t.bond.running t.bond.halted (runEntry loaded h fuel args w) (runEntry loaded k fuel args v) := by
  have loosely {β : Type} (active : List String) {left : EStateM.Result Stop (World (Execution ε)) β}
      {right : EStateM.Result Stop (World (Execution δ)) β}
      (ends : Alike (n.tie active).bond.running (n.tie active).bond.halted left right) :
      Alike t.bond.running t.bond.halted left right := by
    cases ends with
    | ok a w v tied => exact .ok a w v ⟨tied.1, near _ _ _ tied.2⟩
    | error stop w v going dead =>
      refine .error stop w v (fun live => ?_) (fun halted => ?_)
      · exact ⟨(going live).1, near _ _ _ (going live).2⟩
      · exact ⟨(dead halted).1, past _ _ _ (dead halted).2⟩
  have globals := Tie.joins_globals (twins active) fuel loaded.bundle.globals.entries w v tied
  change Alike _ _ (EStateM.bind _ _ w) (EStateM.bind _ _ v)
  unfold EStateM.bind
  generalize loadGlobals h fuel loaded.bundle.globals.entries w = left,
    loadGlobals k fuel loaded.bundle.globals.entries v = right at globals
  cases globals with
  | error stop w v going past => exact loosely active (.error stop w v going past)
  | ok a w v tied =>
    dsimp only
    cases loaded.programs.get? loaded.bundle.entry with
    | none => exact loosely active (Tie.joins_throw w v tied)
    | some program =>
      refine loosely (loaded.bundle.entry :: active) ?_
      exact program_matches (twins _) _ fuel program args { w with host := w.host.enter _ } { v with host := v.host.enter _ }
        ⟨tied.1, n.enters active _ _ _ tied.2⟩

end

section

variable {o : Surroundings ε} {u : Surroundings δ} (outsides : ∀ active, (n.tie active).Outsides o u)

include outsides

theorem host_twins (config : Config) (on off : Bool) (loaded : Loaded) (fuel depth : Nat) {look : Nat → Scope → Act ε Unit}
    {glance : Nat → Scope → Act δ Unit} (looks : ∀ active line scope, (n.tie active).Joins (look line scope) (glance line scope))
    (active : List String) :
    Twins (n.tie active).bond (hostWith { config with debug := on } o loaded fuel look depth)
      (hostWith { config with debug := off } u loaded fuel glance depth) := by
  induction depth generalizing active with
  | zero =>
    exact {
      checkpoint := fun _ _ _ => Tie.joins_throw
      callAtomic := fun _ => Tie.joins_throw
      report := fun _ _ => Tie.joins_throw
      sleep := fun _ => Tie.joins_throw
      print := fun _ => Tie.joins_throw }
  | succ depth inner =>
    have served {β : Type} {p : Act ε β} {q : Act δ β} (inner : (n.tie active).Joins p q) :
        (n.tie active).Joins (serve o p) (serve u q) := Tie.joins_serve (outsides active) inner
    have sleeps (seconds : Float) := served (Tie.joins_sleep (outsides active) seconds)
    exact {
      checkpoint := fun line scope _ => served (looks active line scope)
      callAtomic := fun call => served (joins_call inner loaded fuel active config on off (outsides active) sleeps call)
      report := fun level record => served (Tie.joins_emit rfl)
      sleep := sleeps
      print := fun text => served (Tie.joins_emit rfl) }

end

end Nest

theorem execute_ends (host : Host (Execution ε)) (fuel : Nat) (args : Dict Value) (w : World (Execution ε)) :
    loaded.execute config o host fuel args w =
      let turn (w : World (Execution ε)) : World (Execution ε) := { w with host := w.host.after o.passing }
      match runEntry loaded host fuel args w with
      | .ok outputs w => .ok (.succeeded (entryOutputs loaded.bundle outputs)) (turn w)
      | .error (.error e) w =>
        if e.isHalted || (turn w).host.panel.control.stopped then .ok .cancelled (turn w)
        else .ok (.failed (failureReport config (turn w).host.panel.breakpoints e)) (turn w)
      | .error stop w => .error stop w := by
  change EStateM.bind _ _ w = _
  unfold EStateM.bind Act.attempt
  cases runEntry loaded host fuel args w with
  | ok outputs w => rfl
  | error stop w =>
    cases stop with
    | error e =>
      let turned : World (Execution ε) := { w with host := w.host.after o.passing }
      change (if e.isHalted || turned.host.panel.control.stopped then pure Outcome.cancelled
        else pure (.failed (failureReport config turned.host.panel.breakpoints e)) : Act ε Outcome) turned =
        if e.isHalted || turned.host.panel.control.stopped then _ else _
      split
      · rfl
      · rfl
    | abort => rfl
    | exhausted => rfl

theorem run_ends (fuel : Nat) (args : Dict Value) (w : World (Execution ε)) : loaded.run config o fuel args w =
      match loaded.prepare config o w with
      | .ok (some report) w => conclude (.failed report) w
      | .ok none w =>
        match loaded.execute config o (engineHost config o loaded fuel fuel) fuel args w with
        | .ok outcome w => conclude outcome w
        | .error stop w => .error stop w
      | .error stop w => .error stop w := by
  change EStateM.bind _ _ w = _
  unfold EStateM.bind
  cases loaded.prepare config o w with
  | error stop w => rfl
  | ok missing w =>
    cases missing with
    | some report => rfl
    | none =>
      change EStateM.bind _ conclude w = _
      unfold EStateM.bind
      dsimp only
      cases loaded.execute config o (engineHost config o loaded fuel fuel) fuel args w with
      | ok outcome w => rfl
      | error stop w => rfl

end Flowstep.Run
