import Flowstep.Proofs.Engines
import Flowstep.Proofs.Resolving

/-!
Debugging changes nothing.
-/
namespace Flowstep.Run

open Code (LineMap)
open Package (Agrees Beside Copies Failure Installer Resolver)
open Report (Event Kind Level)
open Script (Alike AtomicCall Host Program Scope Stop Twins Value World)

variable {δ γ π α : Type}

inductive Edit where
  | set (unit : String) (line : Nat)
  | clear (unit : String) (line : Nat)

def Edit.apply (b : Breakpoints) : Edit → Breakpoints
  | .set unit line => b.trySet unit line
  | .clear unit line =>
    match b.clear unit line with
    | .ok (_, b) => b
    | .error _ => b

def Panel.edited (panel : Panel) (edits : List Edit) : Panel :=
  { panel with breakpoints := edits.foldl Edit.apply panel.breakpoints }

-- One who debugs: the edits while the run goes on, and the edits and the command at a pause. It sees the panel.
structure Debugger (δ : Type) where
  edits : Panel → δ → List Edit × δ
  answer : Panel → δ → List Edit × Command × δ

structure Bench (δ π : Type) where
  debugger : δ
  requests : List Request
  packages : π

def onPackages (p : EStateM Failure π α) : EStateM Failure (Bench δ π) α := fun s =>
  match p s.packages with
  | .ok a packages => .ok a { s with packages }
  | .error e packages => .error e { s with packages }

def benchManager (m : Installer π) : Installer (Bench δ π) where
  installedVersion name := onPackages (m.installedVersion name)
  download spec dir index := onPackages (m.download spec dir index)
  installOffline spec dir := onPackages (m.installOffline spec dir)
  install spec index := onPackages (m.install spec index)

def Debugger.turn (d : Debugger δ) (panel : Panel) (s : Bench δ π) : Panel × Bench δ π :=
  let (edits, debugger) := d.edits panel s.debugger
  (panel.edited edits, { s with debugger })

def Debugger.surroundings (d : Debugger δ) (backend : List Request → Except OperationError Json)
    (manager : Option (Installer π)) : Surroundings (Bench δ π) where
  paused panel s :=
    let (edits, command, debugger) := d.answer panel s.debugger
    let panel := panel.edited edits
    match panel.control.send command with
    | .ok control => ({ panel with control }, { s with debugger })
    | .error _ => (panel, { s with debugger })
  sleeping _ := d.turn
  passing := d.turn
  perform r panel s :=
    let (panel, s) := d.turn panel s
    let requests := s.requests ++ [r]
    (backend requests, panel, { s with requests })
  packages := manager.map benchManager

-- What a run reports, the latest first. Pauses are left out, and so are the numbers, which count the pauses too.
def told (events : List Event) : List (Level × Kind × Json) :=
  (events.filter fun e => e.kind ≠ .paused ∧ e.kind ≠ .resumed).map fun e => (e.level, e.kind, e.data)

structure View (π : Type) where
  units : List String
  maps : Dict LineMap
  requests : List Request
  packages : π
  told : List (Level × Kind × Json)

def Execution.view (x : Execution (Bench δ π)) : View π where
  units := x.units
  maps := x.panel.breakpoints.maps
  requests := x.outside.requests
  packages := x.outside.packages
  told := Run.told x.events

theorem edit_maps (b : Breakpoints) (edit : Edit) : (edit.apply b).maps = b.maps := by
  cases edit with
  | set unit line =>
    simp only [Edit.apply, Breakpoints.trySet, Breakpoints.set]
    cases b.resolve unit line with
    | ok g => rfl
    | error e => rfl
  | clear unit line =>
    simp only [Edit.apply, Breakpoints.clear]
    cases b.resolve unit line with
    | ok g => cases held : (b.linesOf unit).contains g <;> simp only [bind, Except.bind, held] <;> rfl
    | error e => rfl

theorem edited_maps {panel : Panel} {edits : List Edit} :
    (panel.edited edits).breakpoints.maps = panel.breakpoints.maps := by
  unfold Panel.edited
  generalize panel.breakpoints = b
  induction edits generalizing b with
  | nil => rfl
  | cons edit rest ih => exact (ih _).trans (edit_maps b edit)

theorem add_view (x : Execution (Bench δ π)) (level : Level) (kind : Kind) (data : Json) :
    (x.add level kind data).view = { x.view with
      told := if kind ≠ .paused ∧ kind ≠ .resumed then (level, kind, data) :: x.view.told else x.view.told } := by
  cases kind <;> rfl

def debugTie (δ γ π : Type) : Tie (Bench δ π) (Bench γ π) where
  near x y := x.view = y.view ∧ x.panel.control.stopped = false ∧ y.panel.control.stopped = false
  past x y := x.view = y.view ∧ x.panel.control.stopped = false ∧ y.panel.control.stopped = false
  ends _ _ near := near
  stopped _ _ near := near.2.1.trans near.2.2.symm
  adds x y level kind data _ near := by
    refine ⟨?_, near.2⟩
    rw [add_view, add_view, near.1]

def debugNest (δ γ π : Type) : Nest (Bench δ π) (Bench γ π) :=
  .flat (debugTie δ γ π)
    (fun unit _ _ near => ⟨congrArg (fun v : View π => { v with units := unit :: v.units }) near.1, near.2⟩)
    (fun _ _ near => ⟨congrArg (fun v : View π => { v with units := v.units.tail }) near.1, near.2⟩)
    (fun _ _ near => ⟨congrArg (fun v : View π => { v with units := v.units.tail }) near.1, near.2⟩)

theorem joins_told {level : Level} {kind : Kind} {data : Json} :
    (debugTie δ γ π).Joins (Act.emit level kind data) (Act.emit level kind data) := by
  refine Tie.joins_update fun x y near => ⟨?_, near.2⟩
  rw [add_view, add_view, near.1]

section

variable (d : Debugger δ) (backend : List Request → Except OperationError Json) (manager : Option (Installer π))

theorem turn_view (x : Execution (Bench δ π)) : (x.after d.turn).view = x.view := by
  have maps : (x.after d.turn).panel.breakpoints.maps = x.panel.breakpoints.maps := edited_maps
  unfold Execution.view
  rw [maps]
  rfl

theorem pause_passes {p : Pause} {w : World (Execution (Bench δ π))} (going : w.host.panel.control.stopped = false) :
    ∃ x, pause (d.surroundings backend manager) p w = .ok () ⟨w.globals, x⟩ ∧ x.view = w.host.view ∧
      x.panel.control.stopped = false := by
  let paused : Execution (Bench δ π) :=
    { w.host with panel := { w.host.panel with control := w.host.panel.control.enterPause p } }.add .info .paused p.toJson
  let answered := paused.after (d.surroundings backend manager).paused
  have waits : pause (d.surroundings backend manager) p w = resume p answered.panel.control ⟨w.globals, answered⟩ := rfl
  have still : answered.panel.control.stopped = false := going
  have maps : answered.panel.breakpoints.maps = w.host.panel.breakpoints.maps := edited_maps
  rw [waits, resume, still]
  refine ⟨_, rfl, ?_, still⟩
  change { w.host.view with maps := answered.panel.breakpoints.maps } = w.host.view
  rw [maps]
  rfl

theorem checkpoint_passes (config : Config) (line : Nat) (scope : Scope) {w : World (Execution (Bench δ π))}
    (going : w.host.panel.control.stopped = false) :
    ∃ x, checkpoint config (d.surroundings backend manager) line scope w = .ok () ⟨w.globals, x⟩ ∧
      x.view = w.host.view ∧ x.panel.control.stopped = false := by
  by_cases debug : config.debug = true
  · cases mapped : w.host.panel.breakpoints.flowLine? scope.unit line with
    | none => exact ⟨w.host, checkpoint_unmapped going (.inr mapped), rfl, going⟩
    | some flowLine =>
      cases reason : reasonOf w.host scope.unit line with
      | none => exact ⟨_, checkpoint_passed going debug mapped reason, rfl, going⟩
      | some due =>
        rw [checkpoint_paused going debug mapped reason]
        exact pause_passes d backend manager going
  · exact ⟨w.host, checkpoint_unmapped going (.inl (Bool.eq_false_iff.mpr debug)), rfl, going⟩

end

section

variable (d : Debugger δ) (e : Debugger γ) (backend : List Request → Except OperationError Json)
  (manager : Option (Installer π))

theorem turns_near {x : Execution (Bench δ π)} {y : Execution (Bench γ π)} (near : (debugTie δ γ π).near x y) :
    (debugTie δ γ π).near (x.after d.turn) (y.after e.turn) :=
  ⟨(turn_view d x).trans (near.1.trans (turn_view e y).symm), near.2⟩

theorem debug_outsides : (debugTie δ γ π).Outsides (d.surroundings backend manager) (e.surroundings backend manager) where
  passing _ _ near := turns_near d e near
  sleeping _ _ _ near := turns_near d e near
  perform r := by
    intro w v tied
    have same : w.host.outside.requests = v.host.outside.requests := congrArg View.requests tied.2.1
    change Alike _ _ (.ok (backend (w.host.outside.requests ++ [r])) _) (.ok (backend (v.host.outside.requests ++ [r])) _)
    rw [same]
    refine .ok _ _ _ ⟨tied.1, ?_, tied.2.2⟩
    exact congrArg (fun view : View π => { view with requests := view.requests ++ [r] }) (turns_near d e tied.2).1

variable (config : Config) (on off : Bool)

theorem joins_checkpoints (line : Nat) (scope : Scope) :
    (debugTie δ γ π).Joins (checkpoint { config with debug := on } (d.surroundings backend manager) line scope)
      (checkpoint { config with debug := off } (e.surroundings backend manager) line scope) := by
  intro w v tied
  obtain ⟨x, left, viewed, going⟩ := checkpoint_passes d backend manager { config with debug := on } line scope tied.2.2.1
  obtain ⟨y, right, seen, still⟩ := checkpoint_passes e backend manager { config with debug := off } line scope tied.2.2.2
  rw [left, right]
  exact .ok () _ _ ⟨tied.1, viewed.trans (tied.2.1.trans seen.symm), going, still⟩

def SameBench (s : Bench δ π) (t : Bench γ π) : Prop := s.requests = t.requests ∧ s.packages = t.packages

omit d e backend manager in
theorem agrees_packages {p : EStateM Failure π α} :
    Agrees (SameBench (δ := δ) (γ := γ)) (onPackages p) (onPackages p) := by
  intro s t same
  unfold onPackages
  rw [same.2]
  cases p t.packages with
  | ok a packages => exact .ok a _ _ ⟨same.1, rfl⟩
  | error failure packages => exact .error failure _ _ ⟨same.1, rfl⟩

theorem bench_copies (m : Installer π) :
    Copies (SameBench (δ := δ) (γ := γ)) (benchManager m) (benchManager m) where
  installedVersion _ := agrees_packages
  download _ _ _ := agrees_packages
  installOffline _ _ := agrees_packages
  install _ _ := agrees_packages

theorem joins_resolved {r : Resolver (Bench δ π)} {s : Resolver (Bench γ π)} (beside : Beside SameBench r s)
    (missing : Option FailureReport) : (debugTie δ γ π).Joins (resolved r missing) (resolved s missing) := by
  refine Tie.joins_bind (Tie.joins_update fun x y near => ⟨?_, near.2⟩) fun _ => ?_
  · change { x.view with requests := r.manager.requests, packages := r.manager.packages } =
      { y.view with requests := s.manager.requests, packages := s.manager.packages }
    rw [near.1, beside.manager.1, beside.manager.2]
  · rw [beside.tips]
    exact Tie.joins_bind Tie.joins_tips fun _ => Tie.joins_pure _

theorem joins_resolve (bundle : Project.Bundle) : (debugTie δ γ π).Joins
    (resolvePackages { config with debug := on } (d.surroundings backend manager) bundle)
    (resolvePackages { config with debug := off } (e.surroundings backend manager) bundle) := by
  cases manager with
  | none => exact Tie.joins_pure none
  | some m =>
    refine Tie.joins_execution fun x y near => ?_
    have ends := Resolver.agrees_resolve_all (bench_copies m) config.cacheDir bundle.requirements
      { manager := x.outside } { manager := y.outside }
      ⟨rfl, rfl, congrArg View.requests near.1, congrArg View.packages near.1⟩
    generalize Resolver.resolveAll (benchManager m) config.cacheDir bundle.requirements { manager := x.outside } = left,
      Resolver.resolveAll (benchManager m) config.cacheDir bundle.requirements { manager := y.outside } = right at ends
    cases ends with
    | ok found r s beside => exact joins_resolved beside none
    | error failure r s beside => exact joins_resolved beside _

variable (loaded : Loaded)

theorem joins_attempt {p : Act (Bench δ π) α} {q : Act (Bench γ π) α} (inner : (debugTie δ γ π).Joins p q) :
    (debugTie δ γ π).Joins (Act.attempt p) (Act.attempt q) := by
  intro w v tied
  have ends := inner w v tied
  unfold Act.attempt
  generalize p w = left, q v = right at ends
  cases ends with
  | ok a w v tied => exact .ok _ w v tied
  | error stop w v going past =>
    -- A force-stop ties the runs no more loosely than any other end.
    have tied : (debugTie δ γ π).bond.running w v := by
      cases halted : stop.isHalted with
      | false => exact going halted
      | true => exact past halted
    cases stop with
    | error e => exact .ok _ w v tied
    | abort => exact .error _ w v (fun _ => tied) (fun _ => tied)
    | exhausted => exact .error _ w v (fun _ => tied) (fun _ => tied)

theorem joins_execute (fuel : Nat) (args : Dict Value) {h : Host (Execution (Bench δ π))} {k : Host (Execution (Bench γ π))}
    (twins : ∀ active, Twins ((debugNest δ γ π).tie active).bond h k) :
    (debugTie δ γ π).Joins (loaded.execute { config with debug := on } (d.surroundings backend manager) h fuel args)
      (loaded.execute { config with debug := off } (e.surroundings backend manager) k fuel args) := by
  have entry : (debugTie δ γ π).Joins (runEntry loaded h fuel args) (runEntry loaded k fuel args) :=
    Nest.joins_entry twins loaded fuel [] args (fun _ _ _ near => near) (fun _ _ _ past => past)
  refine Tie.joins_bind (joins_attempt entry) fun result => ?_
  refine Tie.joins_bind (Tie.joins_passing (debug_outsides d e backend manager)) fun _ => ?_
  cases result with
  | ok outputs => exact Tie.joins_pure _
  | error failure =>
    refine Tie.joins_execution fun x y near => ?_
    have maps : x.panel.breakpoints.maps = y.panel.breakpoints.maps := congrArg View.maps near.1
    have reports : failureReport { config with debug := on } x.panel.breakpoints failure =
        failureReport { config with debug := off } y.panel.breakpoints failure := by
      unfold failureReport Breakpoints.flowLine? Breakpoints.lineMap?
      rw [maps]
    dsimp only
    rw [near.2.1, near.2.2, reports]
    split
    · exact Tie.joins_pure _
    · exact Tie.joins_pure _

theorem joins_conclude {outcome : Outcome} : (debugTie δ γ π).Joins (conclude outcome) (conclude outcome) := by
  have reports : (debugTie δ γ π).Joins (emitOutcome outcome) (emitOutcome outcome) := by
    cases outcome <;> exact joins_told
  refine Tie.joins_bind reports fun _ => ?_
  exact Tie.joins_bind (Tie.joins_update fun x y near => near) fun _ => Tie.joins_pure _

theorem joins_run (fuel : Nat) (args : Dict Value) :
    (debugTie δ γ π).Joins (loaded.run { config with debug := on } (d.surroundings backend manager) fuel args)
      (loaded.run { config with debug := off } (e.surroundings backend manager) fuel args) := by
  refine Tie.joins_bind (Tie.joins_bind (Tie.joins_update fun x y near => near) fun _ =>
    Tie.joins_bind joins_told fun _ => joins_resolve d e backend manager config on off loaded.bundle) fun missing => ?_
  cases missing with
  | some report => exact joins_conclude
  | none =>
    refine Tie.joins_bind (joins_execute d e backend manager config on off loaded fuel args ?_) fun outcome => joins_conclude
    intro active
    rw [← host_with_checkpoint, ← host_with_checkpoint]
    exact Nest.host_twins (fun _ => debug_outsides d e backend manager) config on off loaded fuel fuel
      (fun _ => joins_checkpoints d e backend manager config on off) active

end

structure Account where
  ending : Except Stop Outcome
  requests : List Request
  globals : Dict Value
  told : List (Level × Kind × Json)

def account : EStateM.Result Stop (World (Execution (Bench δ π))) Outcome → Account
  | .ok outcome w => ⟨.ok outcome, w.host.outside.requests, w.globals, told w.host.events⟩
  | .error stop w => ⟨.error stop, w.host.outside.requests, w.globals, told w.host.events⟩

theorem same_account {left : EStateM.Result Stop (World (Execution (Bench δ π))) Outcome}
    {right : EStateM.Result Stop (World (Execution (Bench γ π))) Outcome}
    (ends : Alike (debugTie δ γ π).bond.running (debugTie δ γ π).bond.halted left right) :
    account left = account right := by
  have same {w : World (Execution (Bench δ π))} {v : World (Execution (Bench γ π))}
      (tied : (debugTie δ γ π).bond.running w v) (ending : Except Stop Outcome) :
      (⟨ending, w.host.outside.requests, w.globals, told w.host.events⟩ : Account) =
        ⟨ending, v.host.outside.requests, v.globals, told v.host.events⟩ := by
    rw [show w.host.outside.requests = _ from congrArg View.requests tied.2.1,
      show told w.host.events = _ from congrArg View.told tied.2.1, tied.1]
    rfl
  cases ends with
  | ok outcome w v tied => exact same tied _
  | error stop w v going past =>
    cases halted : stop.isHalted with
    | false => exact same (going halted) _
    | true => exact same (past halted) _

theorem debugging_is_transparent (config : Config) (on off : Bool) (loaded : Loaded) (fuel : Nat) (args : Dict Value)
    (backend : List Request → Except OperationError Json) (manager : Option (Installer π)) (packages : π)
    (d : Debugger δ) (e : Debugger γ) (first : δ) (other : γ) :
    account (loaded.run { config with debug := on } (d.surroundings backend manager) fuel args
        (Execution.start { config with debug := on } loaded.bundle ⟨first, [], packages⟩)) =
      account (loaded.run { config with debug := off } (e.surroundings backend manager) fuel args
        (Execution.start { config with debug := off } loaded.bundle ⟨other, [], packages⟩)) :=
  same_account (joins_run d e backend manager config on off loaded fuel args _ _ ⟨rfl, rfl, rfl, rfl⟩)

def stepper : Debugger Unit where
  edits _ s := ([], s)
  answer _ s := ([], .next, s)

def twoLines : Loaded where
  bundle := { (default : Project.Bundle) with
    entry := "main"
    units := ⟨[("main", { (default : Project.UnitCode) with lineMap := some (.ofOrigins [some 1, some 2]) })]⟩ }
  programs := ⟨[("main", ⟨[⟨1, .pass⟩, ⟨2, .expr (.call (.name "print") [.lit (.str "done")] [])⟩]⟩)]⟩

example : (Script.lastState (twoLines.run { debug := true } (stepper.surroundings (fun _ => .ok .null) none) 10 ∅
    (Execution.start { debug := true } twoLines.bundle ⟨(), [], ()⟩))).host.events.map (·.kind) =
      [.taskEnd, .code, .resumed, .paused, .resumed, .paused, .taskStart] := by
  decide +kernel

end Flowstep.Run
