import Flowstep.Proofs.Keeping

/-!
Where a failure begins.
-/
namespace Flowstep.Script

structure Blame where
  line : Nat
  -- The line of the clause whose test failed, if it is not the first one.
  clause : Option Nat := none
  raised : Error

def Blame.header (b : Blame) : Nat := b.clause.getD b.line

def Blame.error (unit : String) (b : Blame) : Error :=
  { b.raised with trace := b.raised.trace ++ [⟨unit, b.line⟩], located := true }

def Stop.blame? (line : Nat) (clause : Option Nat) : Stop → Option Blame
  | .error e => some ⟨line, clause, e⟩
  | _ => none

namespace Interp

variable {σ : Type} (ctx : Context σ)

def comeTo (first : Bool) (line : Nat) : Exec σ Unit := do
  if !first then checkpoint ctx line

def blameFinal (blame : List Stmt → Machine σ → Option Blame) (fuel : Nat) (pending : Option Blame) (final : Option Suite)
    (m : Machine σ) : Option Blame :=
  match final with
  | none => pending
  | some suite =>
    match checkpoint ctx suite.line m with
    | .error _ _ => none
    | .ok _ n =>
      match execBlock ctx fuel suite.body n with
      | .ok _ _ => pending
      | .error _ _ => blame suite.body n

mutual

def blameBlock : Nat → List Blame → List Stmt → Machine σ → Option Blame
  | 0, _, _, _ => none
  | _, _, [], _ => none
  | fuel + 1, handled, stmt :: rest, m =>
    match exec ctx fuel stmt m with
    | .ok _ n => blameBlock fuel handled rest n
    | .error _ _ => blameStmt fuel handled stmt m

def blameStmt : Nat → List Blame → Stmt → Machine σ → Option Blame
  | 0, _, _, _ => none
  | fuel + 1, handled, stmt, m =>
    match checkpoint ctx stmt.line m with
    | .ok _ n => blameKind fuel handled stmt.line stmt.kind n
    | .error _ _ => none

def blameKind : Nat → List Blame → Nat → StmtKind → Machine σ → Option Blame
  | 0, _, _, _, _ => none
  | fuel + 1, handled, line, kind, m =>
    match kind with
    | .ifChain arms otherwise => blameArms fuel handled line true arms otherwise m
    | .whileLoop test body => blameWhile fuel handled true line test body m
    | .forLoop targets source body =>
      match (eval ctx fuel source >>= fun v => Exec.ofExcept (iterate v)) m with
      | .ok items n => blameFor fuel handled true line targets body items n
      | .error stop _ => stop.blame? line none
    | .tryBlock body handler final => blameTry fuel handled body handler final m
    | kind =>
      match kind, handled with
      | .raise none, b :: _ => some b
      | kind, _ =>
        match execKind ctx (fuel + 1) line kind m with
        | .ok _ _ => none
        | .error stop _ => stop.blame? line none

def blameArms : Nat → List Blame → Nat → Bool → List Arm → Option Suite → Machine σ → Option Blame
  | 0, _, _, _, _, _, _ => none
  | _, _, _, _, [], none, _ => none
  | fuel + 1, handled, _, _, [], some suite, m =>
    match checkpoint ctx suite.line m with
    | .ok _ n => blameBlock fuel handled suite.body n
    | .error _ _ => none
  | fuel + 1, handled, line, first, arm :: rest, otherwise, m =>
    match comeTo ctx first arm.line m with
    | .error _ _ => none
    | .ok _ n =>
      match eval ctx fuel arm.test n with
      | .error stop _ => stop.blame? line (if first then none else some arm.line)
      | .ok v k =>
        if v.truthy then blameBlock fuel handled arm.body k
        else blameArms fuel handled line false rest otherwise k

def blameWhile : Nat → List Blame → Bool → Nat → Expr → List Stmt → Machine σ → Option Blame
  | 0, _, _, _, _, _, _ => none
  | fuel + 1, handled, first, line, test, body, m =>
    match comeTo ctx first line m with
    | .error _ _ => none
    | .ok _ n =>
      match eval ctx fuel test n with
      | .error stop _ => stop.blame? line none
      | .ok v k =>
        if v.truthy then
          match execBlock ctx fuel body k with
          | .ok _ later => blameWhile fuel handled false line test body later
          | .error _ _ => blameBlock fuel handled body k
        else none

def blameFor : Nat → List Blame → Bool → Nat → List Target → List Stmt → List Value → Machine σ → Option Blame
  | 0, _, _, _, _, _, _, _ => none
  | _, _, _, _, _, _, [], _ => none
  | fuel + 1, handled, first, line, targets, body, item :: rest, m =>
    match comeTo ctx first line m with
    | .error _ _ => none
    | .ok _ n =>
      match assignAll ctx fuel targets item n with
      | .error stop _ => stop.blame? line none
      | .ok _ k =>
        match execBlock ctx fuel body k with
        | .ok _ later => blameFor fuel handled false line targets body rest later
        | .error _ _ => blameBlock fuel handled body k

def blameTry : Nat → List Blame → List Stmt → Option Handler → Option Suite → Machine σ → Option Blame
  | 0, _, _, _, _, _ => none
  | fuel + 1, handled, body, handler, final, m =>
    match execBlock ctx fuel body m with
    | .ok _ n => blameFinal ctx (blameBlock fuel handled) fuel none final n
    | .error (.error e) n =>
      match blameBlock fuel handled body m, handler with
      | some b, some h =>
        match (checkpoint ctx h.line >>= fun _ => h.name.forM fun name => Exec.bind name (.str e.kind.message)) n with
        | .error _ _ => none
        | .ok _ k =>
          let entered := { k with handling := e :: k.handling }
          match execBlock ctx fuel h.body entered with
          | .ok _ left => blameFinal ctx (blameBlock fuel handled) fuel none final { left with handling := left.handling.tail }
          | .error _ left =>
            blameFinal ctx (blameBlock fuel handled) fuel (blameBlock fuel (b :: handled) h.body entered) final
              { left with handling := left.handling.tail }
      | pending, _ => blameFinal ctx (blameBlock fuel handled) fuel pending final n
    | .error _ _ => none

end

structure Prompt (host : Host σ) : Prop where
  checkpoint : ∀ line scope w e w', host.checkpoint line scope w = .error (.error e) w' → e.isHalted = true
  report : ∀ level record w e w', host.report level record w = .error (.error e) w' → e.isHalted = true
  sleep : ∀ seconds w e w', host.sleep seconds w = .error (.error e) w' → e.isHalted = true
  print : ∀ text w e w', host.print text w = .error (.error e) w' → e.isHalted = true

-- A failure that comes out of an evaluation. It has lines only if it comes out of an operation or a function that was called.
structure Raised (e : Error) : Prop where
  open_ : e.located = false
  origin : e.trace = [] ∨
    (∃ call w inner w', ctx.host.callAtomic call w = .error (.error inner) w' ∧ e = inner.unwind) ∨
    ∃ fuel f args m n, invoke ctx fuel f args m = .error (.error e) n

def Raises {α : Type} (p : Exec σ α) : Prop := ∀ m e n, p m = .error (.error e) n → e.isHalted = true ∨ Raised ctx e

variable {ctx} {α β : Type} {fuel : Nat}

theorem raised_fresh (kind : ErrorKind) : Raised ctx (.ofKind kind) := ⟨rfl, .inl rfl⟩

variable {p : Exec σ α}

theorem raises_bind {f : α → Exec σ β} (first : Raises ctx p) (second : ∀ a, Raises ctx (f a)) :
    Raises ctx (p >>= f) := by
  intro m e n failed
  rcases bind_failed failed with failed | ⟨a, k, _, failed⟩
  · exact first m e n failed
  · exact second a k e n failed

theorem raises_never (never : ∀ m e n, p m ≠ .error (.error e) n) : Raises ctx p :=
  fun m e n failed => absurd failed (never m e n)

theorem raises_operation {x : Except Stop α} (fresh : Fresh x) : Raises ctx (Exec.ofExcept x) := by
  intro m e n failed
  cases x with
  | ok a => cases failed
  | error stop =>
    cases failed
    obtain ⟨kind, rfl⟩ := fresh e rfl
    exact .inr (raised_fresh kind)

theorem raises_host {p : EStateM Stop (World σ) α} (halts : ∀ w e w', p w = .error (.error e) w' → e.isHalted = true) :
    Raises ctx (.ofHost p) := by
  intro m e n failed
  obtain ⟨w, ran⟩ := host_failed failed
  exact .inl (halts _ e w ran)

theorem raises_call (call : AtomicCall) :
    Raises ctx (Exec.mapError Error.unwind (.ofHost (ctx.host.callAtomic call))) := by
  intro m e n failed
  obtain ⟨inner, asked, rfl⟩ := map_error_failed failed
  obtain ⟨w, ran⟩ := host_failed asked
  exact .inr ⟨rfl, .inr (.inl ⟨call, m.world, inner, w, ran, rfl⟩)⟩

def raising (ctx : Context σ) : Rule σ σ := { holds _ _ p _ := Raises ctx p }

theorem raising_lenient : Lenient (raising ctx) := ⟨fun _ _ => trivial, fun _ => trivial, fun _ => trivial, fun _ => trivial⟩

theorem raises_basic : Basic (raising ctx) where
  done _ := raises_never fun _ _ _ => nofun
  after first second := raises_bind first fun a => second a trivial
  exhausted := raises_never fun _ _ _ => nofun
  look rest m e n failed := rest m m rfl trivial m e n failed
  operation _ fresh := raises_operation fresh
  store _ := raises_never fun _ _ _ => nofun

theorem raises_closed (prompt : Prompt ctx.host) : Closed (raising ctx) ctx ctx where
  toBasic := raises_basic
  unit := rfl
  parts _ _ _ _ _ := trivial
  place f _ _ fresh _ := raises_basic.update (fun _ _ => raises_never fun _ _ _ => nofun) _ _ f fresh
  bind _ _ _ := raises_never fun _ _ _ => nofun
  callAtomic call _ := raises_call call
  report level record := raises_host (prompt.report level record)
  sleep seconds := raises_host (prompt.sleep seconds)
  print text := raises_host (prompt.print text)

variable {m n : Machine σ} {e : Error}

theorem invoke_failed {f : Function} {args : Args} (failed : invoke ctx fuel f args m = .error (.error e) n) :
    (∃ kind, e = .ofKind kind ∧ (maxCallDepth ≤ m.frames.depth ∨ bindArguments f args = .error (Stop.ofKind kind))) ∨
      ∃ less given inner k, fuel = less + 1 ∧ bindArguments f args = .ok given ∧
      execBlock ctx less f.body { m with frames := m.frames.push given } = .error (.error inner) k ∧ e = inner.unwind := by
  cases fuel with
  | zero =>
    cases failed
  | succ less =>
    obtain failed | ⟨_, k, look, failed⟩ := bind_failed failed
    · cases failed
    cases look
    split at failed
    · rename_i deep
      cases failed
      exact .inl ⟨_, rfl, .inl deep⟩
    cases fits : bindArguments f args with
    | error stop =>
      rw [fits] at failed
      cases failed
      obtain ⟨kind, rfl⟩ := bind_arguments_fresh f args e fits
      exact .inl ⟨kind, rfl, .inr rfl⟩
    | ok given =>
      rw [fits] at failed
      obtain failed | ⟨result, k, ran, failed⟩ := bind_failed (p := Exec.observe (execBlock ctx less f.body)) failed
      · exact absurd failed observe_failed
      have ran := observe_done ran
      cases result with
      | ok flow => cases flow <;> cases failed
      | error inner =>
        cases failed
        exact .inr ⟨less, given, inner, k, rfl, rfl, ran, rfl⟩

theorem raises_invoke (f : Function) (args : Args) : Raises ctx (invoke ctx fuel f args) := by
  intro m e n failed
  rcases invoke_failed failed with ⟨kind, rfl, _⟩ | ⟨_, _, _, _, _, _, _, rfl⟩
  · exact .inr (raised_fresh kind)
  · exact .inr ⟨rfl, .inr (.inr ⟨fuel, f, args, m, n, failed⟩)⟩

theorem evaluations_raise (prompt : Prompt ctx.host) (line fuel : Nat) : Evaluations (raising ctx) ctx ctx line fuel := by
  induction fuel with
  | zero => exact raises_basic.evaluations_none
  | succ fuel ih =>
    exact evaluations_next (raises_closed prompt) ih fun _ _ f _ _ _ _ _ given => raises_bind given fun args => raises_invoke f args

section

variable (prompt : Prompt ctx.host)
include prompt

theorem checkpoint_halts {line : Nat} (failed : checkpoint ctx line m = .error (.error e) n) :
    e.isHalted = true := by
  obtain failed | ⟨_, k, set, failed⟩ := bind_failed failed
  · cases failed
  cases set
  obtain failed | ⟨_, k, look, failed⟩ := bind_failed failed
  · cases failed
  cases look
  obtain ⟨w, ran⟩ := host_failed failed
  exact prompt.checkpoint _ _ _ e w ran

end

structure Began (ctx : Context σ) (b : Blame) : Prop where
  raised : Raised ctx b.raised
  live : b.raised.isHalted = false

def Traced (ctx : Context σ) (e : Error) (found : Option Blame) : Prop :=
  ∃ b, found = some b ∧ Began ctx b ∧ e = b.error ctx.unit

structure Handled (ctx : Context σ) (handled : List Blame) (m : Machine σ) : Prop where
  same : m.handling = handled.map (Blame.error ctx.unit)
  began : ∀ b ∈ handled, Began ctx b

variable {handled : List Blame}

theorem handled_kept (known : Handled ctx handled m) (kept : Kept {} m n) :
    Handled ctx handled n := ⟨kept.handling.trans known.same, known.began⟩

theorem traced_located {found : Option Blame} (traced : Traced ctx e found) (line : Nat) :
    Traced ctx (e.locate ctx.unit line) found := by
  obtain ⟨b, same, began, rfl⟩ := traced
  exact ⟨b, same, began, rfl⟩

theorem own_traced (raises : Raises ctx p) (failed : p m = .error (.error e) n) (live : e.isHalted = false) (line : Nat)
    (clause : Option Nat) :
    Traced ctx (e.locate ctx.unit line) (Stop.blame? line clause (.error e)) := by
  rcases raises m e n failed with halted | raised
  · rw [halted] at live
    cases live
  · refine ⟨⟨line, clause, e⟩, rfl, ⟨raised, live⟩, ?_⟩
    rw [Error.locate, raised.open_]
    rfl

structure Blames (ctx : Context σ) (fuel : Nat) : Prop where
  block : ∀ handled stmts m e n, Handled ctx handled m → execBlock ctx fuel stmts m = .error (.error e) n →
    e.isHalted = false → Traced ctx e (blameBlock ctx fuel handled stmts m)
  stmt : ∀ handled stmt m e n, Handled ctx handled m → exec ctx fuel stmt m = .error (.error e) n →
    e.isHalted = false → Traced ctx e (blameStmt ctx fuel handled stmt m)
  kind : ∀ handled line kind m e n, Handled ctx handled m → execKind ctx fuel line kind m = .error (.error e) n →
    e.isHalted = false → Traced ctx (e.locate ctx.unit line) (blameKind ctx fuel handled line kind m)
  arms : ∀ handled line first arms otherwise m e n, Handled ctx handled m →
    execArms ctx fuel first arms otherwise m = .error (.error e) n → e.isHalted = false →
      Traced ctx (e.locate ctx.unit line) (blameArms ctx fuel handled line first arms otherwise m)
  rounds : ∀ handled first line test body m e n, Handled ctx handled m →
    execWhile ctx fuel first line test body m = .error (.error e) n → e.isHalted = false →
      Traced ctx (e.locate ctx.unit line) (blameWhile ctx fuel handled first line test body m)
  items : ∀ handled first line targets body items m e n, Handled ctx handled m →
    execFor ctx fuel first line targets body items m = .error (.error e) n → e.isHalted = false →
      Traced ctx (e.locate ctx.unit line) (blameFor ctx fuel handled first line targets body items m)
  guarded : ∀ handled body handler final m e n, Handled ctx handled m →
    execTry ctx fuel body handler final m = .error (.error e) n → e.isHalted = false →
      Traced ctx e (blameTry ctx fuel handled body handler final m)

theorem blames_none : Blames ctx 0 where
  block _ _ _ _ _ _ failed := by rw [execBlock] at failed; cases failed
  stmt _ _ _ _ _ _ failed := by rw [exec] at failed; cases failed
  kind _ _ _ _ _ _ _ failed := by rw [execKind] at failed; cases failed
  arms _ _ _ _ _ _ _ _ _ failed := by rw [execArms] at failed; cases failed
  rounds _ _ _ _ _ _ _ _ _ failed := by rw [execWhile] at failed; cases failed
  items _ _ _ _ _ _ _ _ _ _ failed := by rw [execFor] at failed; cases failed
  guarded _ _ _ _ _ _ _ _ failed := by rw [execTry] at failed; cases failed

theorem not_live (halted : e.isHalted = true) (live : e.isHalted = false) {p : Prop} : p := by
  rw [halted] at live
  cases live

variable {line : Nat}

theorem checkpoint_passed (prompt : Prompt ctx.host) (known : Handled ctx handled m) (live : e.isHalted = false) {q : Exec σ Flow}
    (failed : (checkpoint ctx line >>= fun _ => q) m = .error (.error e) n) :
    ∃ k, checkpoint ctx line m = .ok () k ∧ Handled ctx handled k ∧ q k = .error (.error e) n := by
  obtain failed | ⟨_, k, passed, failed⟩ := bind_failed failed
  · exact not_live (checkpoint_halts prompt failed) live
  · exact ⟨k, passed, handled_kept known (stays_done (stays_checkpoint ctx line) passed), failed⟩

theorem come_passed (prompt : Prompt ctx.host) (known : Handled ctx handled m) (live : e.isHalted = false) {first : Bool}
    {q : Exec σ Flow} (failed : (comeTo ctx first line >>= fun _ => q) m = .error (.error e) n) :
    ∃ k, comeTo ctx first line m = .ok () k ∧ Handled ctx handled k ∧ q k = .error (.error e) n := by
  cases first with
  | true => exact ⟨m, rfl, known, failed⟩
  | false => exact checkpoint_passed prompt known live failed

variable {stmts : List Stmt}

theorem handled_block {flow : Flow} (known : Handled ctx handled m) (ran : execBlock ctx fuel stmts m = .ok flow n) :
    Handled ctx handled n :=
  handled_kept known (block_keeps (staying_lenient.block _) ran)

theorem handled_failed (known : Handled ctx handled m) (failed : execBlock ctx fuel stmts m = .error (.error e) n) :
    Handled ctx handled n := by
  have kept := (keeping ctx fuel {}).block stmts (staying_lenient.block _) m
  rw [failed] at kept
  exact handled_kept known kept

section

variable (blames : Blames ctx fuel) {handled : List Blame} {m n : Machine σ} {e : Error}
  (known : Handled ctx handled m) (live : e.isHalted = false)
include blames known live

theorem block_traced (failed : execBlock ctx (fuel + 1) stmts m = .error (.error e) n) :
    Traced ctx e (blameBlock ctx (fuel + 1) handled stmts m) := by
  cases stmts with
  | nil =>
    cases failed
  | cons stmt rest =>
    rw [blameBlock]
    obtain failed | ⟨flow, k, ran, failed⟩ := bind_failed failed
    · rw [failed]
      exact blames.stmt handled stmt m e n known failed live
    · rw [ran]
      have kept := stays_done ((keeping ctx fuel {}).stmt stmt (staying_lenient.kind _ _)) ran
      cases flow with
      | normal => exact blames.block handled rest k e n (handled_kept known kept) failed live
      | «break» | «continue» | «return» v => cases failed

variable (prompt : Prompt ctx.host)
include prompt

theorem stmt_traced {stmt : Stmt} (failed : exec ctx (fuel + 1) stmt m = .error (.error e) n) :
    Traced ctx e (blameStmt ctx (fuel + 1) handled stmt m) := by
  rw [blameStmt]
  obtain ⟨k, passed, known, ran⟩ := checkpoint_passed prompt known live failed
  obtain ⟨inner, failedKind, rfl⟩ := map_error_failed ran
  rw [locate_halted] at live
  rw [passed]
  exact blames.kind handled stmt.line stmt.kind k inner n known failedKind live

variable {line : Nat} {first : Bool}

theorem arms_traced {arms : List Arm} {otherwise : Option Suite}
    (failed : execArms ctx (fuel + 1) first arms otherwise m = .error (.error e) n) :
    Traced ctx (e.locate ctx.unit line) (blameArms ctx (fuel + 1) handled line first arms otherwise m) := by
  cases arms with
  | nil =>
    cases otherwise with
    | none =>
      cases failed
    | some suite =>
      simp only [blameArms]
      obtain ⟨k, passed, known, failed⟩ := checkpoint_passed prompt known live failed
      rw [passed]
      exact traced_located (blames.block handled suite.body k e n known failed live) line
  | cons arm rest =>
    have failed : (comeTo ctx first arm.line >>= fun _ => do
        if (← eval ctx fuel arm.test).truthy then execBlock ctx fuel arm.body
        else execArms ctx fuel false rest otherwise) m = .error (.error e) n := by
      cases first <;> exact failed
    rw [blameArms]
    obtain ⟨k, passed, known, failed⟩ := come_passed prompt known live failed
    rw [passed]
    obtain failed | ⟨v, k', value, failed⟩ := bind_failed failed
    · dsimp only
      rw [failed]
      exact own_traced ((evaluations_raise prompt line fuel).eval arm.test trivial) failed live line _
    · have known := handled_kept known (eval_keeps value)
      dsimp only
      rw [value]
      dsimp only
      split at failed
      · rename_i truth
        rw [if_pos truth]
        exact traced_located (blames.block handled arm.body k' e n known failed live) line
      · rename_i truth
        rw [if_neg truth]
        exact blames.arms handled line false rest otherwise k' e n known failed live

variable {body : List Stmt}

theorem rounds_traced {test : Expr} (failed : execWhile ctx (fuel + 1) first line test body m = .error (.error e) n) :
    Traced ctx (e.locate ctx.unit line) (blameWhile ctx (fuel + 1) handled first line test body m) := by
  have failed : (comeTo ctx first line >>= fun _ => testRound ctx fuel line test body) m = .error (.error e) n := by
    cases first <;> exact failed
  rw [blameWhile]
  obtain ⟨k, passed, known, failed⟩ := come_passed prompt known live failed
  rw [passed]
  obtain failed | ⟨v, k', value, failed⟩ := bind_failed failed
  · dsimp only
    rw [failed]
    exact own_traced ((evaluations_raise prompt line fuel).eval test trivial) failed live line none
  · have known := handled_kept known (eval_keeps value)
    dsimp only
    rw [value]
    dsimp only
    split at failed
    · rename_i truth
      rw [if_pos truth]
      obtain failed | ⟨flow, later, ran, failed⟩ := bind_failed failed
      · rw [failed]
        exact traced_located (blames.block handled body k' e n known failed live) line
      · rw [ran]
        have again := blames.rounds handled false line test body later e n (handled_block known ran)
        cases flow with
        | normal => exact again failed live
        | «continue» => exact again failed live
        | «break» | «return» v => cases failed
    · cases failed

theorem items_traced {targets : List Target} {items : List Value}
    (failed : execFor ctx (fuel + 1) first line targets body items m = .error (.error e) n) :
    Traced ctx (e.locate ctx.unit line) (blameFor ctx (fuel + 1) handled first line targets body items m) := by
  cases items with
  | nil =>
    cases failed
  | cons item rest =>
    have failed : (comeTo ctx first line >>= fun _ => itemRound ctx fuel line targets body item rest) m =
        .error (.error e) n := by
      cases first <;> exact failed
    rw [blameFor]
    obtain ⟨k, passed, known, failed⟩ := come_passed prompt known live failed
    rw [passed]
    obtain failed | ⟨_, k', bound, failed⟩ := bind_failed failed
    · dsimp only
      rw [failed]
      have raises := (evaluations_raise prompt line fuel).assignAll targets item fun t _ => raising_lenient.admits line t
      exact own_traced raises failed live line none
    · have binds := ((keeping ctx fuel {}).evaluations line).assignAll targets item fun t _ => staying_lenient.admits line t
      have known := handled_kept known (stays_done binds bound)
      dsimp only
      rw [bound]
      dsimp only
      obtain failed | ⟨flow, later, ran, failed⟩ := bind_failed failed
      · rw [failed]
        exact traced_located (blames.block handled body k' e n known failed live) line
      · rw [ran]
        have again := blames.items handled false line targets body rest later e n (handled_block known ran)
        cases flow with
        | normal => exact again failed live
        | «continue» => exact again failed live
        | «break» | «return» v => cases failed

theorem kind_traced {kind : StmtKind} (failed : execKind ctx (fuel + 1) line kind m = .error (.error e) n) :
    Traced ctx (e.locate ctx.unit line) (blameKind ctx (fuel + 1) handled line kind m) := by
  have closed := raises_closed prompt
  have raises (plain : isSimple kind = true) := simple_next closed (evaluations_raise prompt line fuel)
    (fun _ _ => raises_never fun _ _ _ => nofun) (raising_lenient.kind line kind) plain
  cases kind with
  | ifChain arms otherwise =>
    simp only [blameKind]
    exact blames.arms handled line true arms otherwise m e n known failed live
  | whileLoop test body =>
    simp only [blameKind]
    exact blames.rounds handled true line test body m e n known failed live
  | forLoop targets source body =>
    simp only [execKind, ← bind_assoc] at failed
    simp only [blameKind]
    have source : Raises ctx (eval ctx fuel source >>= fun v => Exec.ofExcept (iterate v)) :=
      raises_bind ((evaluations_raise prompt line fuel).eval source trivial) fun v => raises_operation (iterate_fresh v)
    obtain failed | ⟨items, k, given, failed⟩ := bind_failed failed
    · rw [failed]
      exact own_traced source failed live line none
    · rw [given]
      have kept := stays_done (stays_bind (((keeping ctx fuel {}).evaluations line).eval _ (none_fixed _)) fun _ => stays_of_except _) given
      exact blames.items handled true line targets body items k e n (handled_kept known kept) failed live
  | tryBlock body handler final =>
    simp only [blameKind]
    exact traced_located (blames.guarded handled body handler final m e n known failed live) line
  | raise value =>
    cases value with
    | some value =>
      simp only [blameKind]
      rw [failed]
      exact own_traced (raises rfl) failed live line none
    | none =>
      have rethrown := failed
      simp only [execKind] at rethrown
      have current : (get : Exec σ (Machine σ)) m = .ok m m := rfl
      rw [bind_runs current, known.same] at rethrown
      cases handled with
      | nil =>
        simp only [blameKind]
        rw [failed]
        exact own_traced (raises_operation (fresh_fail _)) rethrown live line none
      | cons b rest =>
        cases rethrown
        simp only [blameKind]
        exact ⟨b, rfl, known.began b List.mem_cons_self, rfl⟩
  | pass | expr _ | assign _ _ | augAssign _ _ _ | «break» | «continue» | «return» _ | define _ | load _ =>
    simp only [blameKind]
    rw [failed]
    exact own_traced (raises rfl) failed live line none

variable {final : Option Suite}

-- Whatever is pending when the final clause begins has been followed already.
theorem final_traced {result : Except Error Flow} {pending : Option Blame}
    (followed : ∀ inner, result = .error inner → inner.isHalted = false → Traced ctx inner pending)
    (failed : finish ctx fuel final result m = .error (.error e) n) :
    Traced ctx e (blameFinal ctx (blameBlock ctx fuel handled) fuel pending final m) := by
  have passes (k : Machine σ) (failed : (Exec.ofResult result : Exec σ Flow) k = .error (.error e) n) :
      Traced ctx e pending := by
    cases result with
    | ok flow => cases failed
    | error inner =>
      cases failed
      exact followed e rfl live
  unfold finish at failed
  unfold blameFinal
  cases final with
  | none => exact passes m failed
  | some suite =>
    dsimp only at failed ⊢
    split at failed
    · rename_i halted
      cases result with
      | ok flow => cases halted
      | error inner =>
        cases failed
        exact not_live halted live
    · obtain ⟨k, passed, known, failed⟩ := checkpoint_passed prompt known live failed
      rw [passed]
      obtain failed | ⟨flow, k', ran, failed⟩ := bind_failed failed
      · dsimp only
        rw [failed]
        exact blames.block handled suite.body k e n known failed live
      · dsimp only
        rw [ran]
        cases flow with
        | normal => exact passes k' failed
        | «break» | «continue» | «return» v => cases failed

theorem handler_traced {b : Blame} (began : Began ctx b)
    (failed : handle ctx fuel body final (b.error ctx.unit) m = .error (.error e) n) :
    Traced ctx e (match execBlock ctx fuel body { m with handling := b.error ctx.unit :: m.handling } with
      | .ok _ left => blameFinal ctx (blameBlock ctx fuel handled) fuel none final { left with handling := left.handling.tail }
      | .error _ left =>
        blameFinal ctx (blameBlock ctx fuel handled) fuel
          (blameBlock ctx fuel (b :: handled) body { m with handling := b.error ctx.unit :: m.handling }) final
          { left with handling := left.handling.tail }) := by
  have entered : Handled ctx (b :: handled) { m with handling := b.error ctx.unit :: m.handling } :=
    ⟨by rw [known.same]; rfl, List.forall_mem_cons.mpr ⟨began, known.began⟩⟩
  have left (later : Machine σ) (still : Handled ctx (b :: handled) later) :
      Handled ctx handled { later with handling := later.handling.tail } := ⟨by rw [still.same]; rfl, known.began⟩
  obtain failed | ⟨result, later, ran, failed⟩ := bind_failed (p := Exec.observe (execBlock ctx fuel body)) failed
  · exact absurd failed observe_failed
  have ran := observe_done ran
  cases result with
  | ok flow =>
    rw [ran]
    exact final_traced blames (left later (handled_block entered ran)) live prompt (by rintro _ ⟨⟩) failed
  | error inner =>
    rw [ran]
    refine final_traced blames (left later (handled_failed entered ran)) live prompt ?_ failed
    rintro _ ⟨⟩ innerLive
    exact blames.block (b :: handled) body _ inner later entered ran innerLive

theorem guarded_traced {handler : Option Handler}
    (failed : execTry ctx (fuel + 1) body handler final m = .error (.error e) n) :
    Traced ctx e (blameTry ctx (fuel + 1) handled body handler final m) := by
  rw [blameTry]
  obtain failed | ⟨result, k, ran, failed⟩ := bind_failed failed
  · exact absurd failed observe_failed
  have ran := observe_done ran
  cases result with
  | ok flow =>
    rw [ran]
    exact final_traced blames (handled_block known ran) live prompt (by rintro _ ⟨⟩) failed
  | error inner =>
    rw [ran]
    have knownLater := handled_failed known ran
    cases halted : inner.isHalted with
    | true =>
      have passes : inner.isCatchable = false := by rw [Error.isCatchable, halted]; rfl
      have failed : finish ctx fuel final (.error inner) k = .error (.error e) n := by
        cases handler with
        | none => exact failed
        | some h =>
          simp only [passes] at failed
          exact failed
      rw [finish_dead ctx fuel final halted] at failed
      cases failed
      exact not_live halted live
    | false =>
      have traced := blames.block handled body m inner k known ran halted
      obtain ⟨b, found, began, same⟩ := traced
      rw [found]
      cases handler with
      | none =>
        refine final_traced blames knownLater live prompt ?_ failed
        rintro _ ⟨⟩ _
        exact ⟨b, rfl, began, same⟩
      | some h =>
        have catchable : inner.isCatchable = true := by rw [Error.isCatchable, halted]; rfl
        simp only [catchable] at failed
        subst same
        have failed : ((checkpoint ctx h.line >>= fun _ => h.name.forM fun name =>
            Exec.bind name (.str (b.error ctx.unit).kind.message)) >>= fun _ => handle ctx fuel h.body final (b.error ctx.unit)) k =
            .error (.error e) n := by
          rw [bind_assoc]
          cases named : h.name with
          | none =>
            rw [named] at failed
            exact failed
          | some name =>
            rw [named] at failed
            exact failed
        obtain failed | ⟨_, k', entered, failed⟩ := bind_failed failed
        · obtain failed | ⟨_, _, _, failed⟩ := bind_failed failed
          · exact not_live (checkpoint_halts prompt failed) live
          · cases named : h.name <;> rw [named] at failed <;> cases failed
        · dsimp only
          rw [entered]
          have kept : Kept {} k k' := by
            refine stays_done (stays_bind (stays_checkpoint ctx h.line) fun _ => ?_) entered
            cases h.name with
            | none => exact stays_pure _
            | some name => exact stays_modify fun m => ⟨keeps_bind m.frames _ ⟨List.not_mem_nil, List.not_mem_nil⟩, rfl⟩
          exact handler_traced blames (handled_kept knownLater kept) live prompt began failed

end

theorem blames_next (prompt : Prompt ctx.host) (blames : Blames ctx fuel) : Blames ctx (fuel + 1) where
  block _ _ _ _ _ known failed live := block_traced blames known live failed
  stmt _ _ _ _ _ known failed live := stmt_traced blames known live prompt failed
  kind _ _ _ _ _ _ known failed live := kind_traced blames known live prompt failed
  arms _ _ _ _ _ _ _ _ known failed live := arms_traced blames known live prompt failed
  rounds _ _ _ _ _ _ _ _ known failed live := rounds_traced blames known live prompt failed
  items _ _ _ _ _ _ _ _ _ known failed live := items_traced blames known live prompt failed
  guarded _ _ _ _ _ _ _ known failed live := guarded_traced blames known live prompt failed

theorem blames_all (prompt : Prompt ctx.host) (fuel : Nat) : Blames ctx fuel := by
  induction fuel with
  | zero => exact blames_none
  | succ fuel ih => exact blames_next prompt ih

def blameProgram (ctx : Context σ) (fuel : Nat) (program : Program) (args : Dict Value) (m : Machine σ) : Option Blame :=
  match execBlock ctx fuel program.body m with
  | .error _ _ => blameBlock ctx fuel [] program.body m
  | .ok _ n =>
    match n.functions.get? "main" with
    | none => none
    | some f =>
      match bindArguments f ⟨[.map args], []⟩ with
      | .error _ => none
      | .ok given => blameBlock ctx (fuel - 1) [] f.body { n with frames := n.frames.push given }

theorem program_traced (prompt : Prompt ctx.host) {program : Program} {args : Dict Value} (top : m.frames.inner = [])
    (none_handled : m.handling = []) (live : e.isHalted = false)
    (failed : runProgram ctx fuel program args m = .error (.error e) n) :
    (∃ flow k main kind, execBlock ctx fuel program.body m = .ok flow k ∧ k.functions.get? "main" = some main ∧
        bindArguments main ⟨[.map args], []⟩ = .error (Stop.ofKind kind)) ∨
      ∃ b, blameProgram ctx fuel program args m = some b ∧ Began ctx b ∧ e.kind = b.raised.kind ∧
        e.trace = b.raised.trace ++ [⟨ctx.unit, b.line⟩] := by
  have known : Handled ctx [] m := ⟨none_handled, fun _ member => nomatch member⟩
  unfold blameProgram
  obtain failed | ⟨flow, k, ran, failed⟩ := bind_failed failed
  · rw [failed]
    obtain ⟨b, found, began, rfl⟩ := (blames_all prompt fuel).block [] program.body m e n known failed live
    exact .inr ⟨b, found, began, rfl, rfl⟩
  · rw [ran]
    have failed : runMain ctx fuel args k = .error (.error e) n := by
      cases flow with
      | «return» v => cases failed
      | normal | «break» | «continue» => exact failed
    obtain failed | ⟨_, k, look, failed⟩ := bind_failed failed
    · cases failed
    cases look
    dsimp only
    cases main : k.functions.get? "main" with
    | none =>
      rw [main] at failed
      cases failed
    | some f =>
      rw [main] at failed
      obtain failed | ⟨result, k', _, failed⟩ := bind_failed failed
      · rcases invoke_failed failed with ⟨kind, rfl, deep | fits⟩ | ⟨less, given, inner, k', rfl, fits, body, rfl⟩
        · have still := (block_keeps (staying_lenient.block _) ran : Kept {} m k).frames.outside top
          rw [Frames.depth, still] at deep
          exact absurd deep (by decide)
        · exact .inl ⟨flow, k, f, kind, rfl, main, fits⟩
        · dsimp only
          rw [fits]
          have known : Handled ctx [] { k with frames := k.frames.push given } :=
            ⟨(handled_block known ran).same, fun _ member => nomatch member⟩
          obtain ⟨b, found, began, rfl⟩ := (blames_all prompt less).block [] f.body _ inner k' known body live
          exact .inr ⟨b, found, began, rfl, rfl⟩
      · dsimp only at failed
        cases held : result.2.get? "args" with
        | none =>
          rw [held] at failed
          cases failed
        | some v =>
          rw [held] at failed
          cases v <;> cases failed

end Interp

end Flowstep.Script
