import Flowstep.Proofs.Debugging
import Flowstep.Proofs.Delivery

/-!
What those who watch a run are told of its start and its end. The run reports its start first and its end last. It then
closes the sink, which waits for the delivery to exit, and its outcome is shown after that.
-/
namespace Flowstep.Run

open Report (Action Delivery Droppable Event Kind Level Splits)
open Script (Alike Scope Stop Value World alike_last lastState)

abbrev Notice := Level × Kind × Json

def notice (e : Event) : Notice := (e.level, e.kind, e.data)

-- What is reported of an outcome.
def Outcome.notice : Outcome → Notice
  | .succeeded outputs => (.info, .taskEnd, .ofFields [("outputs", .obj outputs)])
  | .cancelled => (.warn, .taskCancelled, .ofFields [])
  | .failed report => (.error, .taskError, report.toJson)

def Loaded.notice (loaded : Loaded) : Notice :=
  (.info, .taskStart, .ofFields [("project", .str loaded.bundle.projectId), ("name", .str loaded.bundle.name),
    ("entry", .str loaded.bundle.entry)])

-- The start, then what happens, and then the end.
def Told (loaded : Loaded) (outcome : Outcome) (told : List Notice) : Prop :=
  ∃ mid, told = loaded.notice :: (mid ++ [outcome.notice]) ∧ ∀ n ∈ mid, midway n.2.1 = true

variable {ε : Type} {loaded : Loaded}

-- The reports of a run that goes on, the latest first.
def Underway (loaded : Loaded) (x : Execution ε) : Prop :=
  ∃ mid, x.events.map notice = mid ++ [loaded.notice] ∧ ∀ n ∈ mid, midway n.2.1 = true

theorem underway_add {x : Execution ε} (underway : Underway loaded x) (level : Level) {kind : Kind} (data : Json)
    (inner : midway kind = true) : Underway loaded (x.add level kind data) := by
  obtain ⟨mid, shape, inners⟩ := underway
  exact ⟨(level, kind, data) :: mid, congrArg _ shape, List.forall_mem_cons.mpr ⟨inner, inners⟩⟩

-- A run beside itself that has reported its start and not yet its end.
def courseTie (ε : Type) (loaded : Loaded) : Tie ε ε where
  near x y := x = y ∧ Underway loaded x
  past x y := x = y ∧ Underway loaded x
  ends _ _ near := near
  stopped _ _ near := near.1 ▸ rfl
  adds _ _ level _ data inner near := ⟨near.1 ▸ rfl, underway_add near.2 level data inner⟩

def courseNest (ε : Type) (loaded : Loaded) : Nest ε ε :=
  .flat (courseTie ε loaded) (fun _ _ _ near => ⟨near.1 ▸ rfl, near.2⟩) (fun _ _ near => ⟨near.1 ▸ rfl, near.2⟩)
    (fun _ _ past => ⟨past.1 ▸ rfl, past.2⟩)

section

variable (o : Surroundings ε)

theorem course_outsides : (courseTie ε loaded).Outsides o o where
  passing _ _ near := ⟨near.1 ▸ rfl, near.2⟩
  sleeping _ _ _ near := ⟨near.1 ▸ rfl, near.2⟩
  perform r := by
    rintro ⟨globals, x⟩ ⟨_, _⟩ ⟨rfl, rfl, underway⟩
    exact .ok _ _ _ ⟨rfl, rfl, underway⟩

theorem course_checkpoint (config : Config) (line : Nat) (scope : Scope) :
    (courseTie ε loaded).Joins (checkpoint config o line scope) (checkpoint config o line scope) := by
  have sees : (courseTie ε loaded).Sees := by constructor <;> exact fun _ _ near => near.1 ▸ rfl
  exact Tie.joins_checkpoint sees (fun _ _ near => ⟨near.1 ▸ rfl, near.2⟩) (Tie.joins_pause sees {
    controls := fun _ _ => Tie.joins_update fun _ _ near => ⟨near.1 ▸ rfl, near.2⟩
    steps := fun _ _ _ near => ⟨near.1 ▸ rfl, near.2⟩
    waits := fun _ _ near => ⟨near.1 ▸ rfl, near.2⟩ }) config line scope

theorem course_entry (config : Config) (fuel : Nat) (args : Dict Value) (w : World (Execution ε))
    (underway : Underway loaded w.host) :
    Underway loaded (lastState (runEntry loaded (engineHost config o loaded fuel fuel) fuel args w)).host := by
  have twins := Nest.host_twins (n := courseNest ε loaded) (fun _ => course_outsides o) config config.debug config.debug
    loaded fuel fuel (fun _ => course_checkpoint o config)
  have ends : Alike (courseTie ε loaded).bond.running (courseTie ε loaded).bond.halted _ _ :=
    Nest.joins_entry twins loaded fuel [] args (fun _ _ _ near => near) (fun _ _ _ past => past) w w
      ⟨rfl, rfl, underway⟩
  rw [host_with_checkpoint] at ends
  exact (alike_last (courseTie ε loaded).bond.ends ends).2.2

end

theorem tips_told (tips : List Package.Tip) {w : World (Execution ε)} (underway : Underway loaded w.host) :
    ∃ v, (tips.forM fun tip => Act.emit .info .tip tip.toJson : Act ε Unit) w = .ok () v ∧ Underway loaded v.host := by
  induction tips generalizing w with
  | nil => exact ⟨w, rfl, underway⟩
  | cons tip rest ih => exact ih (w := { w with host := w.host.add .info .tip tip.toJson }) (underway_add underway _ _ rfl)

theorem packages_told (config : Config) (o : Surroundings ε) (bundle : Project.Bundle) {w : World (Execution ε)}
    (underway : Underway loaded w.host) :
    ∃ missing v, resolvePackages config o bundle w = .ok missing v ∧ Underway loaded v.host := by
  have finished (r : Package.Resolver ε) (missing : Option FailureReport) :
      ∃ v, resolved r missing w = .ok missing v ∧ Underway loaded v.host := by
    obtain ⟨v, told, later⟩ := tips_told r.tips.reverse (w := { w with host := { w.host with outside := r.manager } }) underway
    exact ⟨v, Script.Interp.bind_runs told, later⟩
  unfold resolvePackages
  cases o.packages with
  | none => exact ⟨none, w, rfl, underway⟩
  | some manager =>
    dsimp only
    rw [execution_then]
    cases Package.Resolver.resolveAll manager config.cacheDir bundle.requirements { manager := w.host.outside } with
    | ok found r => exact ⟨_, finished r none⟩
    | error e r => exact ⟨_, finished r _⟩

-- A run that ends has reported its start, then what happened, and then its outcome. No failure of a script keeps it from
-- that.
def Concluded (loaded : Loaded) : EStateM.Result Stop (World (Execution ε)) Outcome → Prop
  | .ok outcome v => Told loaded outcome (v.host.events.reverse.map notice)
  | .error stop _ => ∀ e, stop ≠ .error e

theorem outcome_told (outcome : Outcome) {w : World (Execution ε)} (underway : Underway loaded w.host) :
    Concluded loaded (conclude outcome w) := by
  obtain ⟨mid, shape, inner⟩ := underway
  have told (x : Execution ε) (adds : x.events.map notice = outcome.notice :: w.host.events.map notice) :
      Told loaded outcome (x.events.reverse.map notice) := by
    refine ⟨mid.reverse, ?_, fun n member => inner n (List.mem_reverse.mp member)⟩
    rw [List.map_reverse, adds, shape]
    simp
  cases outcome <;> exact told _ rfl

theorem run_told (config : Config) (o : Surroundings ε) (loaded : Loaded) (fuel : Nat) (args : Dict Value) (env : ε) :
    Concluded loaded (loaded.run config o fuel args (Execution.start config loaded.bundle env)) := by
  obtain ⟨missing, w, prepared, underway⟩ : ∃ missing w,
      loaded.prepare config o (Execution.start config loaded.bundle env) = .ok missing w ∧ Underway loaded w.host :=
    packages_told config o loaded.bundle ⟨[], rfl, by simp⟩
  rw [run_ends, prepared]
  cases missing with
  | some report => exact outcome_told _ underway
  | none =>
    have goes := course_entry o config fuel args w underway
    dsimp only
    rw [execute_ends]
    generalize runEntry loaded (engineHost config o loaded fuel fuel) fuel args w = result at goes
    cases result with
    | ok outputs v => exact outcome_told _ goes
    | error stop v =>
      cases stop with
      | error e =>
        dsimp only
        generalize (e.isHalted || _) = halted
        cases halted with
        | true => exact outcome_told .cancelled goes
        | false => exact outcome_told (.failed _) goes
      | abort | exhausted => simp [Concluded]

-- Reports that get lost do not change this.
theorem told_splits {outcome : Outcome} {all kept gone : List Event} (told : Told loaded outcome (all.map notice))
    (splits : Splits all kept gone) (droppable : Droppable gone) : Told loaded outcome (kept.map notice) := by
  obtain ⟨mid, shape, inner⟩ := told
  have order := splits.order.map notice
  have present {n : Notice} (member : n ∈ all.map notice) (frames : midway n.2.1 = false) : n ∈ kept.map notice := by
    obtain ⟨e, among, rfl⟩ := List.mem_map.mp member
    refine List.mem_map_of_mem ((List.mem_append.mp (splits.whole.subset among)).resolve_right fun lost => ?_)
    rw [notice, droppable e lost] at frames
    cases frames
  rw [shape] at order present
  generalize kept.map notice = seen at order present
  have other : loaded.notice ≠ outcome.notice := by cases outcome <;> simp [Loaded.notice, Outcome.notice]
  have ends : midway outcome.notice.2.1 = false := by cases outcome <;> rfl
  have outside {n : Notice} (frames : midway n.2.1 = false) : n ∉ mid :=
    fun member => Bool.false_ne_true (frames.symm.trans (inner n member))
  have first := present List.mem_cons_self rfl
  have last := present (List.mem_cons_of_mem _ List.mem_concat_self) ends
  cases order with
  | cons _ below =>
    rcases List.mem_append.mp (below.subset first) with within | same
    · exact absurd within (outside rfl)
    · exact absurd (List.mem_singleton.mp same) other
  | cons_cons _ below =>
    obtain ⟨front, back, rfl, early, late⟩ := List.sublist_append_iff.mp below
    have later := List.mem_append.mp ((List.mem_cons.mp last).resolve_left other.symm)
    have here : outcome.notice ∈ back := later.resolve_left fun before => outside ends (early.subset before)
    rw [late.eq_of_length_le (List.length_pos_of_mem here)]
    exact ⟨front, rfl, fun n member => inner n (early.subset member)⟩

-- A run that makes its reports, closes the sink and then shows its outcome, beside the delivery.
structure Showing where
  delivery : Delivery
  -- The reports that are still to be made.
  left : List Notice
  shown : Bool

namespace Showing

def start (capacity watchers : Nat) (notices : List Notice) : Showing := ⟨.start capacity watchers, notices, false⟩

-- The run takes a turn, or the delivery takes an action of its own. Closing the sink waits for the delivery to exit.
def step (s : Showing) : Option Action → Showing
  | none =>
    match s.left with
    | n :: left => { s with delivery := s.delivery.step (.emit n.1 n.2.1 n.2.2), left }
    | [] =>
      if s.delivery.sink.closed then { s with shown := s.shown || s.delivery.exited }
      else { s with delivery := s.delivery.step .close }
  | some (.emit _ _ _) | some .close => s
  | some a => { s with delivery := s.delivery.step a }

def run (s : Showing) (turns : List (Option Action)) : Showing := turns.foldl step s

structure Kept (capacity watchers : Nat) (notices : List Notice) (s : Showing) : Prop where
  reached : ∃ actions, s.delivery = (Delivery.start capacity watchers).run actions
  made : s.delivery.emitted.map notice ++ s.left = notices
  closed : s.delivery.sink.closed = true → s.left = []
  shown : s.shown = true → s.delivery.exited = true

variable {capacity watchers : Nat} {notices : List Notice} {s : Showing}

theorem kept_step (kept : Kept capacity watchers notices s) (turn : Option Action) :
    Kept capacity watchers notices (s.step turn) := by
  have reached (a : Action) : ∃ actions, s.delivery.step a = (Delivery.start capacity watchers).run actions := by
    obtain ⟨actions, reached⟩ := kept.reached
    exact ⟨actions ++ [a], by rw [Delivery.run_snoc, reached]⟩
  have shown (a : Action) (already : s.shown = true) : (s.delivery.step a).exited = true := by
    cases a <;> grind [Delivery.step, kept.shown already]
  unfold step
  split
  · split
    · rename_i n left more
      have opened : s.delivery.sink.closed = false := by
        rw [← Bool.not_eq_true]
        exact fun closed => List.cons_ne_nil _ _ (more.symm.trans (kept.closed closed))
      refine ⟨reached (.emit _ _ _), ?_, fun closed => ?_, shown _⟩
      · rw [← kept.made, more]
        simp [Delivery.step, opened, notice]
      · simp [Delivery.step, Report.Sink.emit, opened] at closed
    · rename_i done
      split
      · exact { kept with shown := fun shown => (Bool.or_eq_true_iff.mp shown).elim kept.shown id }
      · exact ⟨reached .close, kept.made, fun _ => done, shown .close⟩
  · exact kept
  · exact kept
  · rename_i a emits closes
    have quiet : (s.delivery.step a).emitted = s.delivery.emitted ∧
        (s.delivery.step a).sink.closed = s.delivery.sink.closed := by
      cases a <;> grind [Delivery.step, Report.Sink.fetch, Report.Sink.deliver]
    exact ⟨reached a, quiet.1 ▸ kept.made, quiet.2 ▸ kept.closed, shown a⟩

theorem kept_run (capacity watchers : Nat) (notices : List Notice) (turns : List (Option Action)) :
    Kept capacity watchers notices ((start capacity watchers notices).run turns) := by
  induction turns using List.reverseRecOn with
  | nil => exact ⟨⟨[], rfl⟩, rfl, by simp [run, start, Delivery.start, Report.Sink.new], by simp [run, start]⟩
  | append_singleton turns turn ih =>
    rw [run, List.foldl_concat]
    exact kept_step ih turn

theorem received_told {outcome : Outcome} (kept : Kept capacity watchers notices s) (told : Told loaded outcome notices)
    {received : List Event} (mem : received ∈ s.delivery.observers) : ∃ told, Told loaded outcome told ∧
      received.reverse.map notice <+: told ∧ (s.shown = true → received.reverse.map notice = told) := by
  obtain ⟨actions, reached⟩ := kept.reached
  have sound : s.delivery.Sound := reached ▸ Delivery.sound_run (Delivery.sound_start capacity watchers) actions
  -- The reports that are still to be made, with any numbers.
  let later : List Event := s.left.map fun n => ⟨0, n.1, n.2.1, n.2.2⟩
  have same : later.map notice = s.left := by simp [later, notice, Function.comp_def]
  have all : Told loaded outcome ((s.delivery.emitted ++ later).map notice) := by
    rwa [List.map_append, same, kept.made]
  obtain ⟨lost, splits, -, droppable⟩ := sound.accounts
  refine ⟨_, told_splits all (Report.splits_more later splits) droppable, ?_, fun shown => ?_⟩
  · exact ((Delivery.received_first sound mem).trans (List.prefix_append _ _)).map notice
  · obtain ⟨closed, idle⟩ := sound.exited (kept.shown shown)
    rw [Delivery.idle_received sound idle mem, List.map_append, same, kept.closed closed, List.append_nil]

end Showing

def twoLinesEnd : EStateM.Result Stop (World (Execution (Bench Unit Unit))) Outcome :=
  twoLines.run {} (stepper.surroundings (fun _ => .ok .null) none) 10 ∅ (Execution.start {} twoLines.bundle ⟨(), [], ()⟩)

-- The delivery wakes up after the run has made its three reports and closed the sink.
def lateDelivery (v : World (Execution ε)) : Showing :=
  (Showing.start 1 2 (v.host.events.reverse.map notice)).run (.replicate 4 none ++ [some .fetch, some .hand, some .hand,
    some .settle, some .fetch, some .hand, some .hand, some .settle, some .exit, none])

end Flowstep.Run
