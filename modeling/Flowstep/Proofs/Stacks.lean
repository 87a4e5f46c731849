import Flowstep.Proofs.Keeping
import Flowstep.Proofs.Twins

/-!
The stacks of a running script.
-/
namespace Flowstep.Script.Interp

variable {σ α β : Type} {ctx : Context σ} {fuel : Nat} {m n : Machine σ}

def Returns (p : Exec σ α) (m n : Machine σ) : Prop := (∃ a, p m = .ok a n) ∨ ∃ e, p m = .error (.error e) n

def Balanced (p : Exec σ α) : Prop := ∀ m n, Returns p m n → n.frames.depth = m.frames.depth ∧ n.handling = m.handling

theorem stays_returns {spared : Spared} {p : Exec σ α} (stays : Stays spared p) (ended : Returns p m n) : Kept spared m n := by
  have known := stays m
  rcases ended with ⟨a, done⟩ | ⟨e, failed⟩
  · rwa [done] at known
  · rwa [failed] at known

theorem stays_balanced {p : Exec σ α} (stays : Stays {} p) : Balanced p := by
  intro m n ended
  have kept := stays_returns stays ended
  refine ⟨?_, kept.handling⟩
  unfold Frames.depth
  cases split : m.frames.inner with
  | nil => rw [kept.frames.outside split]
  | cons frame rest =>
    obtain ⟨later, same, _⟩ := kept.frames.inside frame rest split
    rw [same]
    rfl

-- The same host, but for its answers where more functions are active than are allowed.
def strayed (host : Host σ) (other : Nat → Scope → EStateM Stop (World σ) Unit) : Host σ :=
  { host with
    checkpoint := fun line scope => if scope.depth ≤ maxCallDepth then host.checkpoint line scope else other line scope }

def oneWorld (σ : Type) : Bond σ σ := ⟨Eq, Eq, fun _ _ same => same, fun _ _ same => by rw [same], fun _ _ _ same => by rw [same]⟩

theorem strayed_twins (host : Host σ) (other : Nat → Scope → EStateM Stop (World σ) Unit) :
    Twins (oneWorld σ) host (strayed host other) := by
  have alone {α : Type} (p : EStateM Stop (World σ) α) : Matches Eq Eq p p := by
    rintro w _ rfl
    cases p w with
    | ok a v => exact .ok a v v rfl
    | error stop v => exact .error stop v v (fun _ => rfl) (fun _ => rfl)
  refine ⟨fun line scope low => ?_, fun _ => alone _, fun _ _ => alone _, fun _ => alone _, fun _ => alone _⟩
  dsimp only [strayed]
  rw [if_pos low]
  exact alone _

-- From a machine where no more functions are active than are allowed, the two do the same and end at such a machine.
def Shallow (p q : Exec σ α) : Prop := ∀ m, m.frames.depth ≤ maxCallDepth →
  p m = q m ∧ (lastState (p m)).frames.depth ≤ maxCallDepth

theorem pair_shallow {p q : Exec σ α} (pair : Exec.Pair (oneWorld σ) p q) : Shallow p q := by
  intro m low
  have equal {m n : Machine σ} (same : Same Eq m n) : m = n := by
    obtain ⟨world, frames, functions, handling, line, _⟩ := same
    cases m
    cases n
    congr
  have ends := pair m m ⟨rfl, rfl, rfl, rfl, rfl, low⟩
  have same := alike_project (f := id) (fun _ _ same => same) (fun _ _ same => (equal same).symm) ends
  have last := alike_last (fun _ _ same => same) ends
  refine ⟨?_, last.shallow⟩
  rw [← same]
  cases q m <;> rfl

theorem invoke_full (f : Function) (args : Args) (full : maxCallDepth ≤ m.frames.depth) :
    invoke ctx (fuel + 1) f args m = .error (.error (.ofKind (.runtime "maximum recursion depth exceeded"))) m := by
  change (if maxCallDepth ≤ m.frames.depth then Exec.fail _ else _) m = _
  rw [if_pos full]
  rfl

structure AllCalls (c d : Context σ) (fuel : Nat) (P : ∀ {α : Type}, Exec σ α → Exec σ α → Prop) : Prop where
  block : ∀ stmts, P (execBlock c fuel stmts) (execBlock d fuel stmts)
  stmt : ∀ stmt, P (exec c fuel stmt) (exec d fuel stmt)
  expr : ∀ e, P (eval c fuel e) (eval d fuel e)
  function : ∀ f args, P (invoke c fuel f args) (invoke d fuel f args)

theorem calls_shallow (host : Host σ) (unit : String) (other : Nat → Scope → EStateM Stop (World σ) Unit) (fuel : Nat) :
    AllCalls ⟨host, unit⟩ ⟨strayed host other, unit⟩ fuel Shallow := by
  obtain ⟨run, called⟩ := pairs_hold (strayed_twins host other) unit fuel
  exact {
    block := fun stmts => pair_shallow (run.block stmts (pairing_lenient.block stmts))
    stmt := fun stmt => pair_shallow (run.stmt stmt (pairing_lenient.kind _ _))
    expr := fun e => pair_shallow ((run.evaluations 0).eval e trivial)
    function := fun f args => pair_shallow (called 0 f args) }

theorem calls_balanced (ctx : Context σ) (fuel : Nat) : AllCalls ctx ctx fuel fun p _ => Balanced p := by
  obtain ⟨run, called⟩ := executions_hold (stays_whole ctx {})
    (fun _ _ f args run => stays_invoke args (run.block f.body (staying_lenient.block f.body))) fuel
  exact {
    block := fun stmts => stays_balanced (run.block stmts (staying_lenient.block stmts))
    stmt := fun stmt => stays_balanced (run.stmt stmt (staying_lenient.kind _ _))
    expr := fun e => stays_balanced ((run.evaluations 0).eval e (none_fixed _))
    function := fun f args => stays_balanced (called 0 f args) }

-- The machine from which a handler runs.
def entered (h : Handler) (e : Error) (m : Machine σ) : Machine σ :=
  { m with
    frames := match h.name with
      | none => m.frames
      | some name => m.frames.bind name (.str e.kind.message)
    handling := e :: m.handling }

-- The machines a script comes to, with the failures that the handlers running there have caught, the innermost first.
inductive Within (ctx : Context σ) : List Error → Machine σ → Prop where
  | start (world : World σ) : Within ctx [] (.start world)
  | block {caught m n} (fuel stmts) : Within ctx caught m → Returns (execBlock ctx fuel stmts) m n → Within ctx caught n
  | stmt {caught m n} (fuel stmt) : Within ctx caught m → Returns (exec ctx fuel stmt) m n → Within ctx caught n
  | expr {caught m n} (fuel e) : Within ctx caught m → Returns (eval ctx fuel e) m n → Within ctx caught n
  | function {caught m n} (fuel f args) : Within ctx caught m → Returns (invoke ctx fuel f args) m n → Within ctx caught n
  | target {caught m n} (fuel targets v) : Within ctx caught m → Returns (assignAll ctx fuel targets v) m n → Within ctx caught n
  | checkpoint {caught m n} (line) : Within ctx caught m → Returns (checkpoint ctx line) m n → Within ctx caught n
  | body {caught m} (frame) : Within ctx caught m → Within ctx caught { m with frames := m.frames.push frame }
  | handler {caught m n k} {fuel body e} (h : Handler) : Within ctx caught m →
    execBlock ctx fuel body m = .error (.error e) n → e.isCatchable = true → checkpoint ctx h.line n = .ok () k →
    Within ctx (e :: caught) (entered h e k)
  | left {e caught m} : Within ctx (e :: caught) m → Within ctx caught { m with handling := m.handling.tail }

variable {caught : List Error} {e : Error}

theorem within_handling (within : Within ctx caught m) : m.handling = caught := by
  induction within with
  | start world => rfl
  | block fuel stmts _ ended ih => exact (((calls_balanced ctx fuel).block stmts _ _ ended).2).trans ih
  | stmt fuel stmt _ ended ih => exact (((calls_balanced ctx fuel).stmt stmt _ _ ended).2).trans ih
  | expr fuel e _ ended ih => exact (((calls_balanced ctx fuel).expr e _ _ ended).2).trans ih
  | function fuel f args _ ended ih => exact (((calls_balanced ctx fuel).function f args _ _ ended).2).trans ih
  | target fuel targets v _ ended ih =>
    have stays := ((keeping ctx fuel {}).evaluations 0).assignAll targets v fun t _ => staying_lenient.admits 0 t
    exact ((stays_balanced stays _ _ ended).2).trans ih
  | checkpoint line _ ended ih => exact ((stays_balanced (stays_checkpoint ctx line) _ _ ended).2).trans ih
  | body frame _ ih => exact ih
  | @handler caught m n k fuel body e h _ failed _ passed ih =>
    have first := ((calls_balanced ctx fuel).block body m n (.inr ⟨e, failed⟩)).2
    have second := (stays_balanced (stays_checkpoint ctx h.line) n k (.inl ⟨(), passed⟩)).2
    exact congrArg (e :: ·) (second.trans (first.trans ih))
  | left _ ih => rw [ih]; rfl

def reraised : List Error → Error
  | e :: _ => e
  | [] => .ofKind (.runtime "no active exception to re-raise")

theorem raise_again (within : Within ctx caught m) {line : Nat} (passed : checkpoint ctx line m = .ok () n) :
    exec ctx (fuel + 2) ⟨line, .raise none⟩ m = .error (.error ((reraised caught).locate ctx.unit line)) n := by
  have held := within_handling (.checkpoint line within (.inl ⟨(), passed⟩))
  have raised : execKind ctx (fuel + 1) line (.raise none) n = .error (.error (reraised n.handling)) n := by
    obtain ⟨world, frames, functions, handling, line⟩ := n
    cases handling <;> rfl
  change (checkpoint ctx line >>= fun _ => _) m = _
  rw [bind_runs passed, Exec.mapError, raised, held]

theorem try_handles {body : List Stmt} {h : Handler} {k : Machine σ} (failed : execBlock ctx fuel body m = .error (.error e) n)
    (catchable : e.isCatchable = true) (passed : checkpoint ctx h.line n = .ok () k) (final : Option Suite) :
    execTry ctx (fuel + 1) body (some h) final m = (Exec.observe (execBlock ctx fuel h.body) >>= fun result =>
      modify (fun s : Machine σ => { s with handling := s.handling.tail }) >>= fun _ => finish ctx fuel final result) (entered h e k) := by
  have seen : Exec.observe (execBlock ctx fuel body) m = .ok (.error e) n := by rw [Exec.observe, failed]
  change (Exec.observe (execBlock ctx fuel body) >>= fun _ => _) m = _
  rw [bind_runs seen]
  simp only [catchable]
  change (checkpoint ctx h.line >>= fun _ => _) n = _
  rw [bind_runs passed]
  unfold entered
  cases h.name <;> rfl

theorem stacks_are_balanced_and_bounded (ctx : Context σ) (fuel : Nat) :
    AllCalls ctx ctx fuel (fun p _ => Balanced p) ∧ (∀ other, AllCalls ctx ⟨strayed ctx.host other, ctx.unit⟩ fuel Shallow) ∧
    (∀ f args m, maxCallDepth ≤ m.frames.depth → invoke ctx (fuel + 1) f args m =
      .error (.error (.ofKind (.runtime "maximum recursion depth exceeded"))) m) ∧
    ∀ caught m, Within ctx caught m →
      (∀ line n, checkpoint ctx line m = .ok () n →
        exec ctx (fuel + 2) ⟨line, .raise none⟩ m = .error (.error ((reraised caught).locate ctx.unit line)) n) ∧
      ∀ body h final e n k, execBlock ctx fuel body m = .error (.error e) n → e.isCatchable = true →
        checkpoint ctx h.line n = .ok () k → Within ctx (e :: caught) (entered h e k) ∧
          execTry ctx (fuel + 1) body (some h) final m = (Exec.observe (execBlock ctx fuel h.body) >>= fun result =>
            modify (fun s : Machine σ => { s with handling := s.handling.tail }) >>= fun _ => finish ctx fuel final result)
            (entered h e k) := by
  refine ⟨calls_balanced ctx fuel, fun other => calls_shallow ctx.host ctx.unit other fuel, fun f args m full => invoke_full f args full, ?_⟩
  intro caught m within
  refine ⟨fun line n passed => raise_again within passed, fun body h final e n k failed catchable passed => ?_⟩
  exact ⟨.handler h within failed catchable passed, try_handles failed catchable passed final⟩

end Flowstep.Script.Interp
