import Flowstep.Proofs.Engines
import Flowstep.Proofs.Halting
import Flowstep.Run.Session

/-!
A run that is told to stop.
-/
namespace Flowstep.Run

open Script (AtomicCall Host Scope Stop Twins Value World alike_last alike_project lastState mapState split_unique)

variable {ε α : Type}

inductive Service where
  | checkpoint
  | call
  | sleep
  | report
  | print

def Service.looks : Service → Bool
  | .checkpoint | .call | .sleep => true
  | .report | .print => false

inductive Note where
  | start (service : Service)
  | finish (service : Service) (stop : Option Stop)
  | request (request : Request)

structure Mark where
  note : Note
  stopped : Bool

def Mark.late : Mark → Bool
  | ⟨.start service, stopped⟩ => service.looks && stopped
  | _ => false

def Mark.halts : Mark → Bool
  | ⟨.finish _ stop, _⟩ => stop.any Stop.isHalted
  | _ => false

abbrev Marked (ε : Type) := ε × List Mark

namespace Execution

def marked (x : Execution ε) : Execution (Marked ε) := { x with outside := (x.outside, []) }

def unmarked (x : Execution (Marked ε)) : Execution ε := { x with outside := x.outside.1 }

def mark (x : Execution (Marked ε)) (note : Note) : Execution (Marked ε) :=
  { x with outside := (x.outside.1, x.outside.2 ++ [⟨note, x.panel.control.stopped⟩]) }

end Execution

def Surroundings.marked (o : Surroundings ε) : Surroundings (Marked ε) where
  paused panel s := let (panel, env) := o.paused panel s.1; (panel, env, s.2)
  sleeping seconds panel s := let (panel, env) := o.sleeping seconds panel s.1; (panel, env, s.2)
  passing panel s := let (panel, env) := o.passing panel s.1; (panel, env, s.2)
  perform r panel s :=
    let (result, after, env) := o.perform r panel s.1
    (result, after, env, s.2 ++ [⟨.request r, panel.control.stopped⟩])

def marking (service : Service) (p : Act (Marked ε) α) : Act (Marked ε) α := fun w =>
  match p { w with host := w.host.mark (.start service) } with
  | .ok a w => .ok a { w with host := w.host.mark (.finish service none) }
  | .error stop w => .error stop { w with host := w.host.mark (.finish service (some stop)) }

def markedHost (config : Config) (o : Surroundings ε) (loaded : Loaded) (fuel : Nat) : Nat → Host (Execution (Marked ε))
  | 0 =>
    { checkpoint := fun _ _ => throw .exhausted
      callAtomic := fun _ => throw .exhausted
      report := fun _ _ => throw .exhausted
      sleep := fun _ => throw .exhausted
      print := fun _ => throw .exhausted }
  | depth + 1 =>
    { checkpoint := fun line scope => serve o.marked (marking .checkpoint (checkpoint config o.marked line scope))
      callAtomic := fun call =>
        serve o.marked (marking .call (callAtomic config o.marked loaded (markedHost config o loaded fuel depth) fuel
          (fun seconds => serve o.marked (marking .sleep (sleep o.marked seconds))) call))
      report := fun level record => serve o.marked (marking .report (Act.emit level .code record.toJson))
      sleep := fun seconds => serve o.marked (marking .sleep (sleep o.marked seconds))
      print := fun text => serve o.marked (marking .print (emitText text)) }

-- Whoever is outside may stop a run, but nobody takes that back.
structure Surroundings.KeepsStop (o : Surroundings ε) : Prop where
  paused : ∀ panel env, panel.control.stopped = true → (o.paused panel env).1.control.stopped = true
  sleeping : ∀ seconds panel env, panel.control.stopped = true →
    (o.sleeping seconds panel env).1.control.stopped = true
  passing : ∀ panel env, panel.control.stopped = true → (o.passing panel env).1.control.stopped = true
  perform : ∀ r panel env, panel.control.stopped = true → (o.perform r panel env).2.1.control.stopped = true

structure Orderly (marks : List Mark) (stopped : Bool) : Prop where
  grows : marks.Pairwise fun earlier later => earlier.stopped = true → later.stopped = true
  seen : ∀ m ∈ marks, m.stopped = true → stopped = true

def Calm (marks : List Mark) : Prop := ∀ m ∈ marks, m.late = false

-- At most one service started late, and nothing but ends by force-stop follow.
def Ended (marks : List Mark) : Prop :=
  Calm marks ∨ ∃ front m rest, marks = front ++ m :: rest ∧ Calm front ∧ ∀ n ∈ rest, n.halts = true

variable {stopped : Bool}

theorem orderly_nil : Orderly [] stopped := ⟨.nil, fun _ mem => absurd mem List.not_mem_nil⟩

theorem orderly_later {marks : List Mark} {later : Bool} (orderly : Orderly marks stopped)
    (keeps : stopped = true → later = true) : Orderly marks later :=
  ⟨orderly.grows, fun m mem was => keeps (orderly.seen m mem was)⟩

theorem orderly_snoc {marks : List Mark} (orderly : Orderly marks stopped) (note : Note) :
    Orderly (marks ++ [⟨note, stopped⟩]) stopped := by
  constructor
  · refine List.pairwise_append.mpr ⟨orderly.grows, List.pairwise_singleton _ _, fun m mem n new was => ?_⟩
    rw [List.mem_singleton.mp new]
    exact orderly.seen m mem was
  · exact List.forall_mem_append.mpr ⟨orderly.seen, List.forall_mem_singleton.mpr id⟩

variable {m : Mark}

theorem calm_snoc {marks : List Mark} (calm : Calm marks) (early : m.late = false) : Calm (marks ++ [m]) :=
  List.forall_mem_append.mpr ⟨calm, List.forall_mem_singleton.mpr early⟩

theorem ended_snoc {marks : List Mark} (ended : Ended marks) (early : m.late = false) (halts : m.halts = true) :
    Ended (marks ++ [m]) := by
  rcases ended with calm | ⟨front, first, rest, split, calm, past⟩
  · exact .inl (calm_snoc calm early)
  · exact .inr ⟨front, first, rest ++ [m], by rw [split, List.append_assoc, List.cons_append], calm,
      List.forall_mem_append.mpr ⟨past, List.forall_mem_singleton.mpr halts⟩⟩

def markTie (ε : Type) : Tie ε (Marked ε) where
  near x y := y.unmarked = x ∧ Orderly y.outside.2 y.panel.control.stopped ∧ Calm y.outside.2
  past x y := y.unmarked = x ∧ Orderly y.outside.2 y.panel.control.stopped ∧ Ended y.outside.2
  ends _ _ near := ⟨near.1, near.2.1, .inl near.2.2⟩
  stopped _ _ near := near.1 ▸ rfl
  adds _ _ _ _ _ _ near := ⟨near.1 ▸ rfl, near.2⟩

def markNest (ε : Type) : Nest ε (Marked ε) :=
  .flat (markTie ε) (fun _ _ _ near => ⟨near.1 ▸ rfl, near.2⟩) (fun _ _ near => ⟨near.1 ▸ rfl, near.2⟩)
    (fun _ _ past => ⟨past.1 ▸ rfl, past.2⟩)

def Heeds (p : Act ε α) : Prop := ∀ w, w.host.panel.control.stopped = true → p w = .error (Stop.ofKind .halted) w

theorem heeds_halt {rest : Unit → Act ε α} : Heeds (Act.haltIfStopped >>= rest) :=
  fun w stopped => (halt_then rest w).trans (if_pos stopped)

section

variable {p : Act ε α} {q : Act (Marked ε) α}

theorem near_mark {x : Execution ε} {y : Execution (Marked ε)} (near : (markTie ε).near x y) {note : Note}
    (early : Mark.late ⟨note, y.panel.control.stopped⟩ = false) : (markTie ε).near x (y.mark note) :=
  ⟨near.1, orderly_snoc near.2.1 note, calm_snoc near.2.2 early⟩

theorem marking_early (inner : (markTie ε).Joins p q) {service : Service} {w : World (Execution ε)}
    {v : World (Execution (Marked ε))} (tied : (markTie ε).bond.running w v)
    (early : Mark.late ⟨.start service, v.host.panel.control.stopped⟩ = false) :
    Script.Alike (markTie ε).bond.running (markTie ε).bond.halted (p w) (marking service q v) := by
  have ends := inner w { v with host := v.host.mark (.start service) } ⟨tied.1, near_mark tied.2 early⟩
  unfold marking
  generalize p w = left, q { v with host := v.host.mark (.start service) } = right at ends
  cases ends with
  | ok a w v tied => exact .ok a w _ ⟨tied.1, near_mark tied.2 rfl⟩
  | error stop w v going past =>
    refine .error stop w _ (fun live => ?_) (fun dead => ?_)
    · exact ⟨(going live).1, near_mark (going live).2 rfl⟩
    · obtain ⟨same, stopped, orderly, ended⟩ := past dead
      exact ⟨same, stopped, orderly_snoc orderly _, ended_snoc ended rfl dead⟩

theorem marking_late (left : Heeds p) (right : Heeds q) (service : Service) {w : World (Execution ε)}
    {v : World (Execution (Marked ε))} (tied : (markTie ε).bond.running w v)
    (stopped : v.host.panel.control.stopped = true) :
    Script.Alike (markTie ε).bond.running (markTie ε).bond.halted (p w) (marking service q v) := by
  have same : w.host.panel.control.stopped = true := ((markTie ε).stopped _ _ tied.2).trans stopped
  unfold marking
  rw [left w same, right { v with host := v.host.mark (.start service) } stopped]
  refine .error _ w _ (fun live => absurd live (by decide)) (fun dead => ⟨tied.1, tied.2.1, ?_, .inr ?_⟩)
  · exact orderly_snoc (orderly_snoc tied.2.2.1 _) _
  · exact ⟨_, _, _, List.append_assoc _ _ _, tied.2.2.2, List.forall_mem_singleton.mpr dead⟩

theorem joins_marking (inner : (markTie ε).Joins p q) (service : Service)
    (heeds : service.looks = true → Heeds p ∧ Heeds q) : (markTie ε).Joins p (marking service q) := by
  intro w v tied
  cases late : Mark.late ⟨.start service, v.host.panel.control.stopped⟩ with
  | false => exact marking_early inner tied late
  | true =>
    obtain ⟨looks, stopped⟩ := Bool.and_eq_true_iff.mp late
    exact marking_late (heeds looks).1 (heeds looks).2 service tied stopped

end

section

variable {o : Surroundings ε} (keeps : o.KeepsStop)

include keeps

theorem marked_outsides : (markTie ε).Outsides o o.marked where
  passing x y := by
    rintro ⟨rfl, orderly, calm⟩
    exact ⟨rfl, orderly_later orderly (keeps.passing _ _), calm⟩
  sleeping seconds x y := by
    rintro ⟨rfl, orderly, calm⟩
    exact ⟨rfl, orderly_later orderly (keeps.sleeping _ _ _), calm⟩
  perform r := by
    rintro ⟨_, x⟩ v ⟨globals, rfl, orderly, calm⟩
    refine .ok _ _ _ ⟨globals, rfl, ?_, calm_snoc calm rfl⟩
    exact orderly_later (orderly_snoc orderly _) (keeps.perform _ _ _)

omit keeps in
theorem marked_sees : (markTie ε).Sees where
  panel _ _ near := near.1 ▸ rfl
  units _ _ near := near.1 ▸ rfl
  stepDepth _ _ near := near.1 ▸ rfl
  entryPending _ _ near := near.1 ▸ rfl

theorem marked_pauses : (markTie ε).Pauses o o.marked where
  controls f same := by
    refine Tie.joins_update fun x y => ?_
    rintro ⟨rfl, orderly, calm⟩
    exact ⟨rfl, orderly_later orderly fun was => (same _).trans was, calm⟩
  steps _ _ _ near := ⟨near.1 ▸ rfl, near.2⟩
  waits x y := by
    rintro ⟨rfl, orderly, calm⟩
    exact ⟨rfl, orderly_later orderly (keeps.paused _ _), calm⟩

theorem joins_look (config : Config) (line : Nat) (scope : Scope) :
    (markTie ε).Joins (checkpoint config o line scope) (checkpoint config o.marked line scope) :=
  Tie.joins_checkpoint marked_sees (fun _ _ near => ⟨near.1 ▸ rfl, near.2⟩)
    (Tie.joins_pause marked_sees (marked_pauses keeps)) config line scope

theorem marked_twins (config : Config) (loaded : Loaded) (fuel depth : Nat) :
    ∀ active, Twins ((markNest ε).tie active).bond (engineHost config o loaded fuel depth)
      (markedHost config o loaded fuel depth) := by
  induction depth with
  | zero =>
    exact fun _ => {
      checkpoint := fun _ _ _ => Tie.joins_throw
      callAtomic := fun _ => Tie.joins_throw
      report := fun _ _ => Tie.joins_throw
      sleep := fun _ => Tie.joins_throw
      print := fun _ => Tie.joins_throw }
  | succ depth inner =>
    have outsides := marked_outsides keeps
    have sleeps (seconds : Float) : (markTie ε).Joins (serve o (sleep o seconds))
        (serve o.marked (marking .sleep (sleep o.marked seconds))) :=
      Tie.joins_serve outsides
        (joins_marking (Tie.joins_sleep outsides seconds) .sleep fun _ => ⟨heeds_halt, heeds_halt⟩)
    exact fun active => {
      checkpoint := fun line scope _ => Tie.joins_serve outsides
        (joins_marking (joins_look keeps config line scope) .checkpoint fun _ => ⟨heeds_halt, heeds_halt⟩)
      callAtomic := fun call => Tie.joins_serve outsides
        (joins_marking (Nest.joins_call inner loaded fuel active config config.debug config.debug outsides sleeps call) .call
          fun _ => ⟨heeds_halt, heeds_halt⟩)
      report := fun level record => Tie.joins_serve outsides
        (joins_marking (Tie.joins_emit rfl) .report fun looks => absurd looks (by decide))
      sleep := sleeps
      print := fun text => Tie.joins_serve outsides
        (joins_marking (Tie.joins_emit rfl) .print fun looks => absurd looks (by decide)) }

end

variable {o : Surroundings ε}

-- A statement of a unit at any depth is not executed any more: its checkpoint halts, and of the script only the line moves.
theorem stopped_statement (config : Config) (keeps : o.KeepsStop) (loaded : Loaded) (fuel depth rest : Nat) (unit : String)
    (stmt : Script.Stmt) {m : Script.Machine (Execution ε)} (stopped : m.world.host.panel.control.stopped = true) :
    Script.Interp.exec ⟨engineHost config o loaded fuel (depth + 1), unit⟩ (rest + 1) stmt m =
      .error (Stop.ofKind .halted)
        { m with line := stmt.line, world := { m.world with host := m.world.host.after o.passing } } := by
  let turned : World (Execution ε) := { m.world with host := m.world.host.after o.passing }
  have halts (scope : Scope) : (engineHost config o loaded fuel (depth + 1)).checkpoint stmt.line scope m.world =
      .error (Stop.ofKind .halted) turned := heeds_halt turned (keeps.passing _ _ stopped)
  have looks : Script.Interp.checkpoint ⟨engineHost config o loaded fuel (depth + 1), unit⟩ stmt.line m =
      .error (Stop.ofKind .halted) { m with line := stmt.line, world := turned } := by
    change Script.Exec.ofHost ((engineHost config o loaded fuel (depth + 1)).checkpoint stmt.line _)
      { m with line := stmt.line } = _
    unfold Script.Exec.ofHost
    rw [halts]
  change EStateM.bind _ _ m = _
  unfold EStateM.bind
  rw [looks]

def Loaded.executeMarked (loaded : Loaded) (config : Config) (o : Surroundings ε) (fuel : Nat) (args : Dict Value)
    (ready : World (Execution ε)) : EStateM.Result Stop (World (Execution (Marked ε))) Outcome :=
  loaded.execute config o.marked (markedHost config o loaded fuel fuel) fuel args { ready with host := ready.host.marked }

def marks (result : EStateM.Result Stop (World (Execution (Marked ε))) α) : List Mark := (lastState result).host.outside.2

-- How the two runs end. Only a run that is cancelled may have started a service late, and a stopped run fails no more.
inductive BothEnd : EStateM.Result Stop (World (Execution ε)) Outcome →
    EStateM.Result Stop (World (Execution (Marked ε))) Outcome → Prop where
  | ended (outcome : Outcome) (w : World (Execution ε)) (v : World (Execution (Marked ε))) (tied : (markTie ε).bond.halted w v)
      (calm : outcome ≠ .cancelled → Calm v.host.outside.2)
      (going : ∀ report, outcome = .failed report → w.host.panel.control.stopped = false) :
      BothEnd (.ok outcome w) (.ok outcome v)
  | lost (stop : Stop) (w : World (Execution ε)) (v : World (Execution (Marked ε))) (tied : (markTie ε).bond.halted w v)
      (calm : Calm v.host.outside.2) : BothEnd (.error stop w) (.error stop v)

theorem execute_both (config : Config) (keeps : o.KeepsStop) (loaded : Loaded) (fuel : Nat) (args : Dict Value)
    (ready : World (Execution ε)) :
    BothEnd (loaded.execute config o (engineHost config o loaded fuel fuel) fuel args ready)
      (loaded.executeMarked config o fuel args ready) := by
  have start : (markTie ε).bond.running ready { ready with host := ready.host.marked } :=
    ⟨rfl, rfl, orderly_nil, fun _ mem => absurd mem List.not_mem_nil⟩
  have ends : Script.Alike (markTie ε).bond.running (markTie ε).bond.halted _ _ :=
    Nest.joins_entry (marked_twins keeps config loaded fuel fuel) loaded fuel [] args (fun _ _ _ near => near)
      (fun _ _ _ past => past) ready _ start
  unfold Loaded.executeMarked
  rw [execute_ends, execute_ends]
  have turns (w : World (Execution ε)) (v : World (Execution (Marked ε))) (tied : (markTie ε).bond.running w v) :
      (markTie ε).bond.running { w with host := w.host.after o.passing } { v with host := v.host.after o.marked.passing } :=
    ⟨tied.1, (marked_outsides keeps).passing _ _ tied.2⟩
  generalize runEntry loaded (engineHost config o loaded fuel fuel) fuel args ready = left,
    runEntry loaded (markedHost config o loaded fuel fuel) fuel args { ready with host := ready.host.marked } = right at ends
  cases ends with
  | ok outputs w v tied =>
    have tied := turns w v tied
    exact .ended _ _ _ ((markTie ε).bond.ends _ _ tied) (fun _ => tied.2.2.2) (by simp)
  | error stop w v going past =>
    cases stop with
    | error e =>
      cases halted : e.isHalted with
      | true =>
        simp only [halted]
        obtain ⟨_, x⟩ := w
        obtain ⟨globals, rfl, orderly, ended⟩ := past halted
        exact .ended .cancelled _ _ ⟨globals, rfl, orderly_later orderly (keeps.passing _ _), ended⟩ (by simp) (by simp)
      | false =>
        have tied := turns w v (going halted)
        simp only [halted, Bool.false_or]
        generalize w.host.after o.passing = x at tied
        obtain ⟨globals, rfl, marked⟩ := tied
        change BothEnd (if (v.host.after o.marked.passing).panel.control.stopped = true then _ else _) _
        split
        · exact .ended .cancelled _ _ ⟨globals, rfl, marked.1, .inl marked.2⟩ (by simp) (by simp)
        · rename_i stopped
          exact .ended _ _ _ ⟨globals, rfl, marked.1, .inl marked.2⟩ (fun _ => marked.2)
            fun _ _ => Bool.eq_false_iff.mpr stopped
    | abort => exact .lost _ w v ((markTie ε).bond.ends _ _ (going rfl)) (going rfl).2.2.2
    | exhausted => exact .lost _ w v ((markTie ε).bond.ends _ _ (going rfl)) (going rfl).2.2.2

variable {left : EStateM.Result Stop (World (Execution ε)) Outcome}
  {right : EStateM.Result Stop (World (Execution (Marked ε))) Outcome} (ends : BothEnd left right)

include ends

theorem both_project : mapState (fun v => { v with host := v.host.unmarked }) right = left := by
  have part (w : World (Execution ε)) (v : World (Execution (Marked ε))) (tied : (markTie ε).bond.halted w v) :
      { v with host := v.host.unmarked } = w := by
    obtain ⟨_, x⟩ := w
    obtain ⟨rfl, rfl, -⟩ := tied
    rfl
  cases ends with
  | ended outcome w v tied => exact congrArg (EStateM.Result.ok _) (part w v tied)
  | lost stop w v tied => exact congrArg (EStateM.Result.error _) (part w v tied)

theorem both_orderly : (marks right).Pairwise fun earlier later => earlier.stopped = true → later.stopped = true := by
  cases ends with
  | ended outcome w v tied => exact tied.2.2.1.grows
  | lost stop w v tied => exact tied.2.2.1.grows

theorem both_late {front rest : List Mark} (split : marks right = front ++ m :: rest) (late : m.late = true) :
    (∀ n ∈ rest, n.halts = true) ∧ ∃ w, left = .ok .cancelled w := by
  have early (calm : Calm (marks right)) : False :=
    absurd (late.symm.trans (calm m (split ▸ by simp))) (by decide)
  cases ends with
  | lost stop w v tied calm => exact (early calm).elim
  | ended outcome w v tied calm =>
    obtain rfl : outcome = .cancelled := Classical.byContradiction fun other => early (calm other)
    refine ⟨?_, w, rfl⟩
    rcases tied.2.2.2 with calm | ⟨before, first, after, cut, calm, past⟩
    · exact (early calm).elim
    · have starts (n : Mark) (mem : n ∈ after) : ¬ n.late = true := by
        have halts := past n mem
        obtain ⟨note, stopped⟩ := n
        cases note with
        | start service => exact absurd halts (by simp [Mark.halts])
        | finish service stop => simp [Mark.late]
        | request r => simp [Mark.late]
      have same := split_unique (split.symm.trans cut) late (fun n mem => by rw [calm n mem]; decide) starts
      exact same.2 ▸ past

theorem both_stopped {w v : World (Execution ε)} {given outcome : Outcome} (executes : left = .ok given w)
    (gives : conclude given w = .ok outcome v) (stopped : v.host.panel.control.stopped = true) :
    outcome = .cancelled ∨ (∃ outputs, outcome = .succeeded outputs) ∧ Calm (marks right) := by
  cases ends with
  | lost stop w x tied => cases executes
  | ended outcome w x tied calm going =>
    cases executes
    cases given with
    | cancelled =>
      cases gives
      exact .inl rfl
    | succeeded outputs =>
      cases gives
      exact .inr ⟨⟨_, rfl⟩, calm (by simp)⟩
    | failed report =>
      cases gives
      exact absurd ((going report rfl).symm.trans stopped) (by decide)

omit ends

-- Once a run has been stopped, a checkpoint, a call or a sleep that starts gives nothing but force-stops: it reaches no
-- backend, nothing starts after it, at whatever depth it was, and the run is cancelled. A run that has been stopped and
-- is not cancelled has come to its end without another one of them.
theorem stopped_run_serves_no_more (config : Config) (o : Surroundings ε) (keeps : o.KeepsStop) (loaded : Loaded)
    (fuel : Nat) (args : Dict Value) (w ready : World (Execution ε))
    (resolved : loaded.prepare config o w = .ok none ready) :
    let marked := loaded.executeMarked config o fuel args ready
    mapState (fun v => { v with host := v.host.unmarked }) marked =
        loaded.execute config o (engineHost config o loaded fuel fuel) fuel args ready ∧
      (marks marked).Pairwise (fun earlier later => earlier.stopped = true → later.stopped = true) ∧
      (∀ front m rest, marks marked = front ++ m :: rest → m.late = true →
        (∀ n ∈ rest, n.halts = true) ∧ ∃ v, loaded.run config o fuel args w = .ok .cancelled v) ∧
      (∀ depth rest unit stmt (m : Script.Machine (Execution ε)), m.world.host.panel.control.stopped = true →
        Script.Interp.exec ⟨engineHost config o loaded fuel (depth + 1), unit⟩ (rest + 1) stmt m =
          .error (Stop.ofKind .halted)
            { m with line := stmt.line, world := { m.world with host := m.world.host.after o.passing } }) ∧
      ∀ outcome v, loaded.run config o fuel args w = .ok outcome v → v.host.panel.control.stopped = true →
        outcome = .cancelled ∨ (∃ outputs, outcome = .succeeded outputs) ∧ ∀ m ∈ marks marked, m.late = false := by
  have ends := execute_both config keeps loaded fuel args ready
  have prepared := run_ends config o loaded fuel args w
  rw [resolved] at prepared
  dsimp only at prepared
  rw [prepared]
  refine ⟨both_project ends, both_orderly ends, fun front m rest split late => ?_, ?_, fun outcome v gives stopped => ?_⟩
  · obtain ⟨past, left, cancelled⟩ := both_late ends split late
    rw [cancelled]
    exact ⟨past, _, rfl⟩
  · exact fun depth rest unit stmt m stopped => stopped_statement config keeps loaded fuel depth rest unit stmt stopped
  · cases executes : loaded.execute config o (engineHost config o loaded fuel fuel) fuel args ready with
    | ok given left =>
      rw [executes] at gives
      exact both_stopped ends executes gives stopped
    | error stop left =>
      rw [executes] at gives
      cases gives

namespace Session

def Step.panel : Step → Panel
  | .onward panel _ => panel
  | .yield panel _ => panel

theorem await_keeps (turn : Turn) (p : Panel) (s : Session) {w : Wait} : (await turn p s w).panel = p := by
  unfold await
  cases answerTo? turn p s w <;> rfl

theorem send_keeps {c sent : Control} {command : Command} (sends : c.send command = .ok sent) : sent.stopped = c.stopped := by
  unfold Control.send at sends
  split at sends
  · cases sends
    rfl
  · split at sends <;> cases sends

theorem carry_out_keeps (turn : Turn) (p : Panel) (s : Session) (order : Order) (stopped : p.control.stopped = true) :
    (carryOut turn p s order).panel.control.stopped = true := by
  cases order with
  | waitPause | wait | waitBlock count => exact (await_keeps turn p s).symm ▸ stopped
  | command command waits =>
    rw [carryOut]
    cases sends : p.control.send command with
    | ok control => cases waits <;> exact (send_keeps sends).trans stopped
    | error e =>
      cases waits with
      | false => exact stopped
      | true => exact (await_keeps turn p s).symm ▸ stopped
  | set unit line | clear unit line =>
    rw [carryOut]
    split
    · exact stopped
    · exact stopped
  | breakpoints unit | pauseInfo | state => exact stopped
  | stop => cases turn <;> rfl
  | release => cases turn <;> exact stopped

theorem carry_out_all_keeps (turn : Turn) (orders : List Order) (p : Panel) (s : Session)
    (stopped : p.control.stopped = true) : (carryOutAll turn p s orders).1.control.stopped = true := by
  induction orders generalizing p s with
  | nil =>
    unfold carryOutAll
    split
    · exact stopped
    · rfl
  | cons order rest ih =>
    have keeps := carry_out_keeps turn p s order stopped
    unfold carryOutAll
    cases carries : carryOut turn p s order with
    | onward q t => exact ih q t (by rw [carries] at keeps; exact keeps)
    | yield q t => rw [carries] at keeps; exact keeps

theorem turn_keeps (t : Turn) {p : Panel} (s : Session) (stopped : p.control.stopped = true) :
    (turn t p s).1.control.stopped = true := by
  unfold turn
  dsimp only
  split
  · exact stopped
  · exact carry_out_all_keeps _ _ _ _ stopped
  · split
    · exact carry_out_all_keeps _ _ _ _ stopped
    · exact stopped

theorem block_keeps (p : Panel) (s : Session) (stopped : p.control.stopped = true) :
    (block p s).1.control.stopped = true := by
  have waits : (if 0 < s.permits then (p, s) else turn .blocked p s).1.control.stopped = true := by
    split
    · exact stopped
    · exact turn_keeps .blocked s stopped
  unfold block
  generalize (if 0 < s.permits then (p, s) else turn .blocked p s) = after at waits
  dsimp only
  split
  · exact waits
  · rfl

theorem perform_keeps (r : Request) {p : Panel} (s : Session) (stopped : p.control.stopped = true) :
    (perform r p s).2.1.control.stopped = true := by
  unfold perform
  cases s.replies.get? r.key with
  | none => exact stopped
  | some replies =>
    dsimp only
    split
    · exact block_keeps _ _ stopped
    · exact stopped

theorem keeps_stop (withPackages : Bool) : (surroundings withPackages).KeepsStop where
  paused p s stopped := turn_keeps .paused s stopped
  sleeping _ p s stopped := turn_keeps .sleeping s stopped
  passing p s stopped := by
    change (passing p s).1.control.stopped = true
    unfold passing
    split
    · exact stopped
    · exact turn_keeps .passing s stopped
  perform r p s stopped := perform_keeps r s stopped

end Session

def fetchingProject : Loaded where
  bundle := { (default : Project.Bundle) with entry := "main", units := ⟨[("page", default)]⟩ }
  programs := ⟨[("main", ⟨[⟨1, .expr (.call (.attr (.name "Flow") "run") []
      [("process", .lit (.unit "page" .process))])⟩]⟩),
    ("page", ⟨[⟨1, .expr (.call (.attr (.name "report") "info") [.lit (.str "fetching")] [])⟩,
      ⟨2, .tryBlock [⟨3, .expr (.call (.attr (.name "Page") "fetch") []
        [("__on_error__", .lit (.str "skip"))])⟩] (some ⟨4, none, [⟨5, .pass⟩]⟩) none⟩]⟩)]⟩

def impatientStart : World (Execution Session) :=
  Execution.start {} fetchingProject.bundle { orders := some [], passed := Session.turnInterval - 3 }

-- The run is stopped while the called unit reports, and its next line is the last.
theorem stopped_in_report_cancels : ∃ front m rest,
    marks (fetchingProject.executeMarked {} (Session.surroundings false) 20 ∅
      (lastState (fetchingProject.prepare {} (Session.surroundings false) impatientStart))) = front ++ m :: rest ∧
      front.length = 7 ∧ m.late = true ∧ (∀ n ∈ rest, n.halts = true) ∧
      ∃ v, fetchingProject.run {} (Session.surroundings false) 20 ∅ impatientStart = .ok .cancelled v := by
  have settled := stopped_run_serves_no_more {} (Session.surroundings false) (Session.keeps_stop false) fetchingProject
    20 ∅ impatientStart _ rfl
  have split : marks (fetchingProject.executeMarked {} (Session.surroundings false) 20 ∅
      (lastState (fetchingProject.prepare {} (Session.surroundings false) impatientStart))) =
      [⟨.start .checkpoint, false⟩, ⟨.finish .checkpoint none, false⟩, ⟨.start .call, false⟩,
        ⟨.start .checkpoint, false⟩, ⟨.finish .checkpoint none, false⟩, ⟨.start .report, true⟩,
        ⟨.finish .report none, true⟩] ++ ⟨.start .checkpoint, true⟩ ::
      [⟨.finish .checkpoint (some (Stop.ofKind .halted)), true⟩, ⟨.finish .call (some (Stop.ofKind .halted)), true⟩] := rfl
  exact ⟨_, _, _, split, rfl, rfl, settled.2.2.1 _ _ _ split rfl⟩

end Flowstep.Run
