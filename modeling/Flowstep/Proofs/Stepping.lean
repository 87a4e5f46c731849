import Flowstep.Proofs.Debugging

/-!
Stepping over calls.
-/
namespace Flowstep.Run

open Script (Alike AtomicCall Scope Stop Twins Value World alike_last alike_project lastState mapState)

variable {ε α : Type}

structure Look where
  unit : String
  line : Nat
  mapped : Bool
  breakpoint : Bool
  units : List String
  stopped : Bool
  paused : Bool := false
  answer : Option Command := none
deriving DecidableEq

abbrev Watched (ε : Type) := ε × List Look

-- The latest look was a pause. It ends with the command that lies there, unless the run is stopped.
def answered (control : Control) : List Look → List Look
  | [] => []
  | look :: rest => { look with paused := true, answer := if control.stopped then none else control.command } :: rest

namespace Execution

def watched (x : Execution ε) : Execution (Watched ε) := { x with outside := (x.outside, []) }

def unwatched (x : Execution (Watched ε)) : Execution ε := { x with outside := x.outside.1 }

def look (x : Execution ε) (unit : String) (line : Nat) : Look where
  unit := unit
  line := line
  mapped := (x.panel.breakpoints.flowLine? unit line).isSome
  breakpoint := x.panel.breakpoints.contains unit line
  units := x.units
  stopped := x.panel.control.stopped

end Execution

def Surroundings.watched (o : Surroundings ε) : Surroundings (Watched ε) where
  paused panel s := let (panel, env) := o.paused panel s.1; (panel, env, answered panel.control s.2)
  sleeping seconds panel s := let (panel, env) := o.sleeping seconds panel s.1; (panel, env, s.2)
  passing panel s := let (panel, env) := o.passing panel s.1; (panel, env, s.2)
  perform r panel s := let (result, panel, env) := o.perform r panel s.1; (result, panel, env, s.2)

def watching (config : Config) (o : Surroundings ε) (line : Nat) (scope : Scope) : Act (Watched ε) Unit := do
  Act.update fun x => { x with outside := (x.outside.1, x.look scope.unit line :: x.outside.2) }
  checkpoint config o.watched line scope

def Loaded.watch (loaded : Loaded) (config : Config) (o : Surroundings ε) (fuel : Nat) (args : Dict Value)
    (ready : World (Execution ε)) : EStateM.Result Stop (World (Execution (Watched ε))) (Dict Value) :=
  runEntry loaded (hostWith config o.watched loaded fuel (watching config o) fuel) fuel args
    { ready with host := ready.host.watched }

def looks (result : EStateM.Result Stop (World (Execution (Watched ε))) α) : List Look := (lastState result).host.outside.2

def depthBy (units : List String) (before : Option Nat) : Option Command → Option Nat
  | some .next => some units.length
  | some .continue => none
  | none => before

def depthAfter (start : Option Nat) : List Look → Option Nat
  | [] => start
  | look :: rest => depthBy look.units (depthAfter start rest) look.answer

def Look.arrives (debug : Bool) (look : Look) : Bool := debug && !look.stopped && look.mapped

def pendingAfter (debug start : Bool) (log : List Look) : Bool := start && !log.any (Look.arrives debug)

def Look.due (debug : Bool) (depth : Option Nat) (pending : Bool) (look : Look) : Bool :=
  look.arrives debug && (pending || look.breakpoint || depth.any fun d => decide (look.units.length ≤ d))

def Faithful (debug : Bool) (depth : Option Nat) (pending : Bool) : List Look → Prop
  | [] => True
  | look :: rest =>
    look.paused = look.due debug (depthAfter depth rest) (pendingAfter debug pending rest) ∧
      (look.answer ≠ none → look.paused = true) ∧ Faithful debug depth pending rest

section

variable {debug pending : Bool} {depth : Option Nat}

theorem faithful_rest {log : List Look} (later : List Look) (faithful : Faithful debug depth pending (later ++ log)) :
    Faithful debug depth pending log := by
  induction later with
  | nil => exact faithful
  | cons look rest ih => exact ih faithful.2.2

variable {between earlier : List Look} {p : Look}

theorem depth_after_next (next : p.answer = some .next)
    (faithful : Faithful debug depth pending (between ++ p :: earlier)) (quiet : ∀ b ∈ between, b.paused = false) :
    depthAfter depth (between ++ p :: earlier) = some p.units.length := by
  induction between with
  | nil =>
    rw [List.nil_append, depthAfter, next]
    rfl
  | cons b rest ih =>
    obtain ⟨still, others⟩ := List.forall_mem_cons.mp quiet
    have unanswered : b.answer = none := by
      cases given : b.answer with
      | none => rfl
      | some command =>
        have asked := faithful.2.1 (by rw [given]; exact Option.some_ne_none _)
        exact absurd (still.symm.trans asked) Bool.false_ne_true
    rw [List.cons_append, depthAfter, unanswered]
    exact ih faithful.2.2 others

theorem stepped_over {q : Look} (next : p.answer = some .next)
    (faithful : Faithful debug depth pending (q :: between ++ p :: earlier)) (quiet : ∀ b ∈ between, b.paused = false) :
    q.paused = true ↔
      q.stopped = false ∧ q.mapped = true ∧ (q.breakpoint = true ∨ q.units.length ≤ p.units.length) := by
  have asked : p.paused = true := (faithful_rest (q :: between) faithful).2.1 (by rw [next]; exact Option.some_ne_none _)
  have arrived : p.arrives debug = true := by
    rw [(faithful_rest (q :: between) faithful).1] at asked
    exact (Bool.and_eq_true_iff.mp asked).1
  have debugged : debug = true := (Bool.and_eq_true_iff.mp (Bool.and_eq_true_iff.mp arrived).1).1
  have past : pendingAfter debug pending (between ++ p :: earlier) = false := by simp [pendingAfter, arrived]
  have reason := faithful.1
  change q.paused = q.due debug (depthAfter depth (between ++ p :: earlier)) (pendingAfter debug pending (between ++ p :: earlier))
    at reason
  rw [reason, depth_after_next next faithful.2.2 quiet, past]
  simp [Look.due, Look.arrives, debugged, and_assoc]

end

-- A watched run beside the plain one. The active units are those that have been entered and not been left.
structure Watching (debug : Bool) (depth : Option Nat) (pending : Bool) (active : List String) (x : Execution ε)
    (y : Execution (Watched ε)) : Prop where
  plain : y.unwatched = x
  units : y.units = active
  faithful : Faithful debug depth pending y.outside.2
  depth : y.stepDepth = depthAfter depth y.outside.2
  pending : y.entryPending = pendingAfter debug pending y.outside.2

section

variable {debug pending : Bool} {depth : Option Nat}

def watchTie (ε : Type) (debug : Bool) (depth : Option Nat) (pending : Bool) (active : List String) : Tie ε (Watched ε) where
  near := Watching debug depth pending active
  past := Watching debug depth pending active
  ends _ _ near := near
  stopped _ _ near := near.plain ▸ rfl
  adds _ _ _ _ _ _ near := { near with plain := near.plain ▸ rfl }

def watchNest (ε : Type) (debug : Bool) (depth : Option Nat) (pending : Bool) : Nest ε (Watched ε) where
  tie := watchTie ε debug depth pending
  enters _ unit _ _ near := { near with plain := near.plain ▸ rfl, units := congrArg (unit :: ·) near.units }
  leaves _ _ _ _ near := { near with plain := near.plain ▸ rfl, units := congrArg List.tail near.units }
  quits _ _ _ _ past := { past with plain := past.plain ▸ rfl, units := congrArg List.tail past.units }

theorem watched_outsides (o : Surroundings ε) (active : List String) :
    (watchTie ε debug depth pending active).Outsides o o.watched where
  passing _ _ near := { near with plain := near.plain ▸ rfl }
  sleeping _ _ _ near := { near with plain := near.plain ▸ rfl }
  perform r := by
    rintro ⟨_, x⟩ v ⟨globals, near⟩
    obtain rfl := near.plain
    exact .ok _ _ _ ⟨globals, { near with plain := rfl }⟩

variable {active : List String} {look : Look} {rest : List Look}

theorem watching_paused {x : Execution ε} {y : Execution (Watched ε)}
    (faithful : Faithful debug depth pending rest) (own : look.units = active)
    (due : look.due debug (depthAfter depth rest) (pendingAfter debug pending rest) = true) {answer : Option Command}
    (plain : y.unwatched = x) (units : y.units = active) (log : y.outside.2 = { look with paused := true, answer } :: rest)
    (steps : y.stepDepth = depthBy active (depthAfter depth rest) answer) (first : y.entryPending = false) :
    Watching debug depth pending active x y := by
  refine ⟨plain, units, ?_, ?_, ?_⟩
  · rw [log]
    exact ⟨due.symm, fun _ => rfl, faithful⟩
  · rw [log, steps, depthAfter, own]
  · have arrives : look.arrives debug = true := (Bool.and_eq_true_iff.mp due).1
    have same : Look.arrives debug { look with paused := true, answer } = true := arrives
    rw [log, first, pendingAfter, List.any_cons, same, Bool.true_or, Bool.not_true, Bool.and_false]

theorem watched_pause (o : Surroundings ε) {p : Pause} (globals : Dict Value)
    {y : Execution (Watched ε)} (faithful : Faithful debug depth pending rest)
    (own : look.units = active)
    (due : look.due debug (depthAfter depth rest) (pendingAfter debug pending rest) = true)
    (units : y.units = active) (log : y.outside.2 = look :: rest) (steps : y.stepDepth = depthAfter depth rest)
    (first : y.entryPending = false) :
    Alike (watchTie ε debug depth pending active).bond.running (watchTie ε debug depth pending active).bond.halted
      (pause o p ⟨globals, y.unwatched⟩) (pause o.watched p ⟨globals, y⟩) := by
  let entered : Execution (Watched ε) := { y with panel := { y.panel with control := y.panel.control.enterPause p } }
  let told := (entered.add .info .paused p.toJson).after o.watched.paused
  let answer := if told.panel.control.stopped then none else told.panel.control.command
  have logged : told.outside.2 = { look with paused := true, answer } :: rest := by
    change answered told.panel.control y.outside.2 = _
    rw [log]
    rfl
  have paused (x : Execution ε) (z : Execution (Watched ε)) (plain : z.unwatched = x) (seen : z.outside = told.outside)
      (same : z.units = told.units) (stays : z.entryPending = told.entryPending)
      (steps : z.stepDepth = depthBy active (depthAfter depth rest) answer) : Watching debug depth pending active x z :=
    watching_paused faithful own due plain (same.trans units) (seen ▸ logged) steps (stays.trans first)
  change Alike _ _ (resume p told.panel.control ⟨globals, told.unwatched⟩) (resume p told.panel.control ⟨globals, told⟩)
  unfold resume
  have before : told.stepDepth = depthAfter depth rest := steps
  by_cases stopped : told.panel.control.stopped = true
  · rw [if_pos stopped, if_pos stopped]
    have unanswered : answer = none := if_pos stopped
    refine .error _ _ _ (fun live => absurd live (by decide)) (fun _ => ⟨rfl, paused _ _ rfl rfl rfl rfl ?_⟩)
    rw [unanswered]
    exact before
  · rw [if_neg stopped, if_neg stopped]
    have lies : answer = told.panel.control.command := if_neg stopped
    cases command : told.panel.control.command with
    | none =>
      have tied := paused _ told rfl rfl rfl rfl (by rw [lies, command]; exact before)
      exact .error _ _ _ (fun _ => ⟨rfl, tied⟩) (fun _ => ⟨rfl, tied⟩)
    | some given =>
      refine .ok _ _ _ ⟨rfl, paused _ _ rfl rfl rfl rfl ?_⟩
      rw [lies, command, ← units]
      cases given <;> rfl

theorem watched_look (config : Config) (o : Surroundings ε) (active : List String) (line : Nat) (scope : Scope) :
    (watchTie ε config.debug depth pending active).Joins (checkpoint config o line scope) (watching config o line scope) := by
  rintro ⟨globals, x⟩ ⟨_, y⟩ ⟨rfl, near⟩
  have plain : y.unwatched = x := near.plain
  subst plain
  let look := y.look scope.unit line
  let z : Execution (Watched ε) := { y with outside := (y.outside.1, look :: y.outside.2) }
  change Alike _ _ (checkpoint config o line scope ⟨globals, y.unwatched⟩) (checkpoint config o.watched line scope ⟨globals, z⟩)
  have passes (u : Execution (Watched ε)) (plain : u.units = z.units) (log : u.outside.2 = z.outside.2)
      (steps : u.stepDepth = z.stepDepth)
      (undue : look.due config.debug (depthAfter depth y.outside.2) (pendingAfter config.debug pending y.outside.2) = false)
      (first : u.entryPending = (y.entryPending && !look.arrives config.debug)) :
      Watching config.debug depth pending active u.unwatched u := by
    refine ⟨rfl, plain.trans near.units, ?_, ?_, ?_⟩
    · rw [log]
      exact ⟨undue.symm, fun given => absurd rfl given, near.faithful⟩
    · rw [log, steps]
      exact near.depth
    · rw [log, first, near.pending, pendingAfter, pendingAfter, List.any_cons, Bool.not_or, Bool.and_assoc,
        Bool.and_comm (!List.any _ _)]
  have unmapped (out : look.arrives config.debug = false) : Watching config.debug depth pending active z.unwatched z :=
    passes z rfl rfl rfl (by rw [Look.due, out, Bool.false_and]) (by rw [out, Bool.not_false, Bool.and_true])
  by_cases stopped : y.panel.control.stopped = true
  · rw [checkpoint_stopped (w := ⟨globals, y.unwatched⟩) stopped, checkpoint_stopped stopped]
    have out : look.arrives config.debug = false := by
      have late : look.stopped = true := stopped
      rw [Look.arrives, late, Bool.not_true, Bool.and_false, Bool.false_and]
    exact .error _ _ _ (fun live => absurd live (by decide)) (fun _ => ⟨rfl, unmapped out⟩)
  replace stopped := Bool.eq_false_iff.mpr stopped
  have skips (out : config.debug = false ∨ y.panel.breakpoints.flowLine? scope.unit line = none) :
      Alike (watchTie ε config.debug depth pending active).bond.running
        (watchTie ε config.debug depth pending active).bond.halted
        (checkpoint config o line scope ⟨globals, y.unwatched⟩) (checkpoint config o.watched line scope ⟨globals, z⟩) := by
    rw [checkpoint_unmapped (w := ⟨globals, y.unwatched⟩) stopped out, checkpoint_unmapped stopped out]
    refine .ok _ _ _ ⟨rfl, unmapped ?_⟩
    rcases out with plain | unknown
    · rw [Look.arrives, plain, Bool.false_and, Bool.false_and]
    · have off : look.mapped = false := congrArg Option.isSome unknown
      rw [Look.arrives, off, Bool.and_false]
  by_cases debug : config.debug = true
  · cases mapped : y.panel.breakpoints.flowLine? scope.unit line with
    | none => exact skips (.inr mapped)
    | some flowLine =>
      have arrives : look.arrives config.debug = true := by
        have going : look.stopped = false := stopped
        have known : look.mapped = true := congrArg Option.isSome mapped
        rw [Look.arrives, debug, going, known]
        rfl
      have due : look.due config.debug (depthAfter depth y.outside.2) (pendingAfter config.debug pending y.outside.2) =
          (reasonOf y scope.unit line).isSome := by
        have met : look.breakpoint = y.panel.breakpoints.contains scope.unit line := rfl
        rw [Look.due, arrives, ← near.depth, ← near.pending, reasonOf, met]
        cases y.entryPending || y.panel.breakpoints.contains scope.unit line with
        | true => rfl
        | false =>
          cases y.stepDepth with
          | none => rfl
          | some d =>
            have size : look.units.length = y.units.length := rfl
            by_cases small : y.units.length ≤ d <;> simp [size, small]
      cases reason : reasonOf y scope.unit line with
      | none =>
        rw [checkpoint_passed stopped debug mapped reason,
          checkpoint_passed stopped debug mapped reason]
        refine .ok _ _ _ ⟨rfl, passes { z with entryPending := false } rfl rfl rfl ?_ ?_⟩
        · rw [due, reason]
          rfl
        · rw [arrives, Bool.not_true, Bool.and_false]
      | some given =>
        rw [checkpoint_paused stopped debug mapped reason,
          checkpoint_paused stopped debug mapped reason]
        exact watched_pause o globals (y := { z with entryPending := false }) near.faithful near.units
          (by rw [due, reason]; rfl) near.units rfl near.depth rfl
  · exact skips (.inl (Bool.eq_false_iff.mpr debug))

theorem watched_twins (config : Config) (o : Surroundings ε) (loaded : Loaded) (fuel level : Nat) (active : List String) :
    Twins ((watchNest ε config.debug depth pending).tie active).bond (engineHost config o loaded fuel level)
      (hostWith config o.watched loaded fuel (watching config o) level) := by
  rw [← host_with_checkpoint]
  exact Nest.host_twins (watched_outsides o) config config.debug config.debug loaded fuel level (watched_look config o) active

def wholeTie (ε : Type) (debug : Bool) (depth : Option Nat) (pending : Bool) : Tie ε (Watched ε) where
  near x y := ∃ active, Watching debug depth pending active x y
  past x y := ∃ active, Watching debug depth pending active x y
  ends _ _ near := near
  stopped := fun _ _ ⟨active, near⟩ => (watchTie ε debug depth pending active).stopped _ _ near
  adds := fun _ _ _ _ _ inner ⟨active, near⟩ => ⟨active, (watchTie ε debug depth pending active).adds _ _ _ _ _ inner near⟩

end

theorem watching_start {debug : Bool} (x : Execution ε) :
    Watching debug x.stepDepth x.entryPending x.units x x.watched :=
  ⟨rfl, rfl, trivial, rfl, (Bool.and_true _).symm⟩

theorem watch_ends (config : Config) (o : Surroundings ε) (loaded : Loaded) (fuel : Nat) (args : Dict Value)
    (ready : World (Execution ε)) :
    let tie := wholeTie ε config.debug ready.host.stepDepth ready.host.entryPending
    Alike tie.bond.running tie.bond.halted (runEntry loaded (engineHost config o loaded fuel fuel) fuel args ready)
      (loaded.watch config o fuel args ready) :=
  Nest.joins_entry (t := wholeTie ε config.debug ready.host.stepDepth ready.host.entryPending)
    (watched_twins config o loaded fuel fuel) loaded fuel _ args (fun active _ _ near => ⟨active, near⟩)
    (fun active _ _ past => ⟨active, past⟩) ready _ ⟨rfl, watching_start ready.host⟩

theorem call_restores_units (config : Config) (o : Surroundings ε) (loaded : Loaded) (fuel level : Nat) (id : String)
    (call : AtomicCall) (w : World (Execution ε)) :
    (lastState (callUnit loaded (engineHost config o loaded fuel level) fuel id call w)).host.units = w.host.units := by
  let nest := watchNest ε config.debug w.host.stepDepth w.host.entryPending
  have ends := Nest.joins_unit (watched_twins config o loaded fuel level) loaded fuel w.host.units id
    call w { w with host := w.host.watched } ⟨rfl, watching_start w.host⟩
  obtain ⟨-, last⟩ := alike_last (nest.tie w.host.units).bond.ends ends
  exact (congrArg Execution.units last.plain).symm.trans last.units

-- A run that is told to go to the next line while some units are active: it passes all mapped lines that hold no
-- breakpoint and have more active units, and the first other one is where it pauses. The looks are those of the run
-- itself, and calls are balanced, so a line has more active units only inside of a call.
theorem step_over_stays_at_its_level (config : Config) (o : Surroundings ε) (loaded : Loaded) (fuel : Nat) (args : Dict Value)
    (ready : World (Execution ε)) :
    mapState (fun v => { v with host := v.host.unwatched }) (loaded.watch config o fuel args ready) =
        runEntry loaded (engineHost config o loaded fuel fuel) fuel args ready ∧
      (∀ level id call (w : World (Execution ε)),
        (lastState (callUnit loaded (engineHost config o loaded fuel level) fuel id call w)).host.units = w.host.units) ∧
      ∀ later q between p earlier, looks (loaded.watch config o fuel args ready) = later ++ q :: between ++ p :: earlier →
        p.answer = some .next → (∀ b ∈ between, b.paused = false) →
          (∀ b ∈ between, b.stopped = false → b.mapped = true →
            b.breakpoint = false ∧ p.units.length < b.units.length) ∧
          (q.paused = true ↔
            q.stopped = false ∧ q.mapped = true ∧ (q.breakpoint = true ∨ q.units.length ≤ p.units.length)) := by
  have ends := watch_ends config o loaded fuel args ready
  refine ⟨alike_project (Tie.bond _).ends ?_ ends, call_restores_units config o loaded fuel, ?_⟩
  · rintro ⟨_, x⟩ v ⟨globals, active, watching⟩
    obtain rfl := watching.plain
    exact congrArg (World.mk · _) globals.symm
  · intro later q between p earlier log next quiet
    obtain ⟨-, active, watching⟩ := alike_last (Tie.bond _).ends ends
    have faithful := watching.faithful
    rw [show (lastState (loaded.watch config o fuel args ready)).host.outside.2 = _ from log, List.append_assoc] at faithful
    replace faithful := faithful_rest later faithful
    refine ⟨fun b member going mapped => ?_, stepped_over next faithful quiet⟩
    obtain ⟨after, before, rfl⟩ := List.append_of_mem member
    have own : Faithful config.debug ready.host.stepDepth ready.host.entryPending (b :: before ++ p :: earlier) := by
      refine faithful_rest (q :: after) ?_
      rwa [List.cons_append, List.append_assoc, List.cons_append] at faithful
    have passed := stepped_over next own fun c mem => quiet c (by simp [mem])
    rw [quiet b member] at passed
    have stays := mt passed.mpr Bool.false_ne_true
    refine ⟨Bool.eq_false_iff.mpr fun held => stays ⟨going, mapped, .inl held⟩, Nat.lt_of_not_le fun small => ?_⟩
    exact stays ⟨going, mapped, .inr small⟩

def pagedProject : Loaded where
  bundle := { (default : Project.Bundle) with
    entry := "main"
    units := ⟨["main", "page"].map fun unit =>
      (unit, { (default : Project.UnitCode) with lineMap := some (.ofOrigins [some 1, some 2]) })⟩ }
  programs := ⟨[("main", ⟨[⟨1, .expr (.call (.attr (.name "Flow") "run") [] [("process", .lit (.unit "page" .process))])⟩,
      ⟨2, .pass⟩]⟩), ("page", ⟨[⟨1, .pass⟩, ⟨2, .pass⟩]⟩)]⟩

theorem stepper_steps_over_page : ∃ q between p,
    looks (pagedProject.watch { debug := true } (stepper.surroundings (fun _ => .ok .null) none) 20 ∅
      (Execution.start { debug := true } pagedProject.bundle ⟨(), [], ()⟩)) = q :: between ++ [p] ∧
    p.line = 1 ∧ p.answer = some .next ∧ (∀ b ∈ between, b.unit = "page" ∧ p.units.length < b.units.length) ∧
    q.unit = "main" ∧ q.line = 2 ∧ q.paused = true := by
  have log : looks (pagedProject.watch { debug := true } (stepper.surroundings (fun _ => .ok .null) none) 20 ∅
      (Execution.start { debug := true } pagedProject.bundle ⟨(), [], ()⟩)) =
      [] ++ ⟨"main", 2, true, false, ["main"], false, true, some .next⟩ ::
        [⟨"page", 2, true, false, ["page", "main"], false, false, none⟩,
          ⟨"page", 1, true, false, ["page", "main"], false, false, none⟩] ++
        [⟨"main", 1, true, false, ["main"], false, true, some .next⟩] := by decide +kernel
  obtain ⟨-, -, held⟩ := step_over_stays_at_its_level { debug := true } (stepper.surroundings (fun _ => .ok .null) none)
    pagedProject 20 ∅ (Execution.start { debug := true } pagedProject.bundle ⟨(), [], ()⟩)
  obtain ⟨passed, paused⟩ := held _ _ _ _ _ log rfl (by decide)
  refine ⟨_, _, _, log, rfl, rfl, fun b member => ⟨?_, ?_⟩, rfl, rfl, paused.mpr (by decide)⟩
  · revert b
    decide
  · have known : b.stopped = false ∧ b.mapped = true := by
      revert b
      decide
    exact (passed b member known.1 known.2).2

end Flowstep.Run
