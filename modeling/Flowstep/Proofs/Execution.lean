import Flowstep.Proofs.Evaluation
import Flowstep.Proofs.Inversion

/-!
What holds of everything that a script does: each such relation that statements and handlers keep as well.
-/
namespace Flowstep.Script

theorem locate_halted (e : Error) (unit : String) (line : Nat) : (e.locate unit line).isHalted = e.isHalted := by
  unfold Error.locate
  split <;> rfl

namespace Interp

variable {σ τ : Type}

def finish (ctx : Context σ) (fuel : Nat) (final : Option Suite) (result : Except Error Flow) : Exec σ Flow :=
  match final with
  | none => .ofResult result
  | some suite =>
    if resultHalted result then .ofResult result
    else do
      checkpoint ctx suite.line
      match ← execBlock ctx fuel suite.body with
      | .normal => .ofResult result
      | other => return other

def handle (ctx : Context σ) (fuel : Nat) (body : List Stmt) (final : Option Suite) (e : Error) : Exec σ Flow := do
  modify fun s => { s with handling := e :: s.handling }
  let result ← Exec.observe (execBlock ctx fuel body)
  modify fun s => { s with handling := s.handling.tail }
  finish ctx fuel final result

def runMain (ctx : Context σ) (fuel : Nat) (args : Dict Value) : Exec σ (Dict Value) := do
  match (← get).functions.get? "main" with
  | none => return args
  | some f =>
    let (_, frame) ← invoke ctx fuel f ⟨[.map args], []⟩
    match frame.get? "args" with
    | some (.map entries) => return entries
    | _ => return ∅

theorem finish_dead (ctx : Context σ) (fuel : Nat) (final : Option Suite) {e : Error} (dead : e.isHalted = true) :
    finish ctx fuel final (.error e) = throw (.error e) := by
  cases final with
  | none => rfl
  | some suite => exact if_pos dead

section

variable (r : Rule σ τ)

mutual

-- All expressions fit where they are evaluated, and all that is bound or defined may be. The first test of a choice is
-- evaluated on the line of its statement.
def kindFits (line : Nat) : StmtKind → Prop
  | .pass | .break | .continue | .load _ => True
  | .expr e => r.fits line e
  | .assign targets e => r.fits line e ∧ ∀ t ∈ targets, Admits r line t
  | .augAssign target _ e => r.fits line target.expr ∧ r.fits line e ∧ Admits r line target
  | .return value | .raise value => ∀ e ∈ value, r.fits line e
  | .define f => r.defines f
  | .ifChain arms otherwise => (∀ arm ∈ arms.head?, r.fits line arm.test) ∧ armsFit arms ∧ suiteFits otherwise
  | .whileLoop test body => r.fits line test ∧ blockFits body
  | .forLoop targets source body => r.fits line source ∧ (∀ t ∈ targets, Admits r line t) ∧ blockFits body
  | .tryBlock body handler final => blockFits body ∧ handlerFits handler ∧ suiteFits final

def blockFits : List Stmt → Prop
  | [] => True
  | ⟨line, kind⟩ :: rest => kindFits line kind ∧ blockFits rest

def armsFit : List Arm → Prop
  | [] => True
  | ⟨line, test, body⟩ :: rest => r.fits line test ∧ blockFits body ∧ armsFit rest

def suiteFits : Option Suite → Prop
  | none => True
  | some ⟨_, body⟩ => blockFits body

def handlerFits : Option Handler → Prop
  | none => True
  | some ⟨_, name, body⟩ => (∀ n ∈ name, r.free n) ∧ blockFits body

end

variable {r : Rule σ τ}

theorem block_fits_cons {stmt : Stmt} {rest : List Stmt} :
    blockFits r (stmt :: rest) = (kindFits r stmt.line stmt.kind ∧ blockFits r rest) := by
  cases stmt
  rw [blockFits]

theorem block_fits_append {front back : List Stmt} :
    blockFits r (front ++ back) = (blockFits r front ∧ blockFits r back) := by
  induction front with
  | nil => rw [List.nil_append, blockFits, true_and]
  | cons stmt rest ih => rw [List.cons_append, block_fits_cons, block_fits_cons, ih, and_assoc]

theorem block_fits_one {line : Nat} {kind : StmtKind} : blockFits r [⟨line, kind⟩] = kindFits r line kind := by
  rw [blockFits, blockFits, and_true]

theorem arms_fit_cons {arm : Arm} {rest : List Arm} :
    armsFit r (arm :: rest) = (r.fits arm.line arm.test ∧ blockFits r arm.body ∧ armsFit r rest) := by
  cases arm
  rw [armsFit]

theorem suite_fits_some {suite : Suite} : suiteFits r (some suite) = blockFits r suite.body := by
  cases suite
  rw [suiteFits]

theorem handler_fits_some {handler : Handler} :
    handlerFits r (some handler) = ((∀ n ∈ handler.name, r.free n) ∧ blockFits r handler.body) := by
  cases handler
  rw [handlerFits]

structure Lenient (r : Rule σ τ) : Prop where
  fits : ∀ line e, r.fits line e
  free : ∀ name, r.free name
  defines : ∀ f, r.defines f
  changes : ∀ e, r.changes e

theorem Lenient.admits (lenient : Lenient r) (line : Nat) (target : Target) : Admits r line target :=
  ⟨fun e _ => lenient.fits line e, fun n _ => lenient.free n, fun e _ => lenient.changes e⟩

mutual

theorem Lenient.kind (lenient : Lenient r) (line : Nat) : ∀ kind, kindFits r line kind
  | .pass | .break | .continue | .load _ => by simp only [kindFits]
  | .expr e => by
    exact lenient.fits line e
  | .assign targets e => by
    exact ⟨lenient.fits line e, fun t _ => lenient.admits line t⟩
  | .augAssign target _ e => by
    exact ⟨lenient.fits line _, lenient.fits line e, lenient.admits line target⟩
  | .return value | .raise value => by
    exact fun e _ => lenient.fits line e
  | .define f => by
    exact lenient.defines f
  | .ifChain arms otherwise => by
    exact ⟨fun arm _ => lenient.fits line arm.test, lenient.arms arms, lenient.suite otherwise⟩
  | .whileLoop test body => by
    exact ⟨lenient.fits line test, lenient.block body⟩
  | .forLoop targets source body => by
    exact ⟨lenient.fits line source, fun t _ => lenient.admits line t, lenient.block body⟩
  | .tryBlock body handler final => by
    exact ⟨lenient.block body, lenient.handler handler, lenient.suite final⟩

theorem Lenient.block (lenient : Lenient r) : ∀ stmts, blockFits r stmts
  | [] => by simp only [blockFits]
  | ⟨line, kind⟩ :: rest => by
    exact ⟨lenient.kind line kind, lenient.block rest⟩

theorem Lenient.arms (lenient : Lenient r) : ∀ arms, armsFit r arms
  | [] => by simp only [armsFit]
  | ⟨line, test, body⟩ :: rest => by
    exact ⟨lenient.fits line test, lenient.block body, lenient.arms rest⟩

theorem Lenient.suite (lenient : Lenient r) : ∀ suite, suiteFits r suite
  | none => by simp only [suiteFits]
  | some ⟨_, body⟩ => by
    exact lenient.block body

theorem Lenient.handler (lenient : Lenient r) : ∀ handler, handlerFits r handler
  | none => by simp only [handlerFits]
  | some ⟨_, name, body⟩ => by
    exact ⟨fun n _ => lenient.free n, lenient.block body⟩

end

end

structure Whole (r : Rule σ τ) (c : Context σ) (d : Context τ) : Prop extends Closed r c d where
  forget : ∀ {α : Type} {i j : Option Nat} {p : Exec σ α} {q : Exec τ α}, r.holds i j p q → r.holds i none p q
  enter : ∀ {α : Type} {i j : Option Nat} {p : Exec σ α} {q : Exec τ α}, r.holds none j p q → r.holds i j p q
  checkpoint : ∀ line, r.holds none (some line) (checkpoint c line) (checkpoint d line)
  locate : ∀ line {p : Exec σ Flow} {q : Exec τ Flow}, r.holds (some line) none p q →
    r.holds (some line) none (Exec.mapError (·.locate c.unit line) p) (Exec.mapError (·.locate d.unit line) q)
  define : ∀ {line : Nat} (f : Function), r.defines f →
    r.at line (modify fun s : Machine σ => { s with functions := s.functions.insert f.name f })
      (modify fun s : Machine τ => { s with functions := s.functions.insert f.name f })
  raise : ∀ {i : Option Nat} e, r.holds i i (throw (.error e) : Exec σ Flow) (throw (.error e))
  tried : ∀ {p : Exec σ Flow} {q : Exec τ Flow} {f : Except Error Flow → Exec σ Flow} {g : Except Error Flow → Exec τ Flow},
    r.holds none none p q → (∀ result, resultHalted result = false → r.holds none none (f result) (g result)) →
    (∀ e, e.isHalted = true → f (.error e) = throw (.error e) ∧ g (.error e) = throw (.error e)) →
    r.holds none none (Exec.observe p >>= f) (Exec.observe q >>= g)
  handled : ∀ (e : Error) {p : Exec σ Flow} {q : Exec τ Flow} {f : Except Error Flow → Exec σ Flow}
      {g : Except Error Flow → Exec τ Flow}, r.holds none none p q →
    (∀ result, resultHalted result = false → r.holds none none (f result) (g result)) →
    (∀ e, e.isHalted = true → f (.error e) = throw (.error e) ∧ g (.error e) = throw (.error e)) →
    r.holds none none
      (do
        modify fun s => { s with handling := e :: s.handling }
        let result ← Exec.observe p
        modify fun s => { s with handling := s.handling.tail }
        f result)
      (do
        modify fun s => { s with handling := e :: s.handling }
        let result ← Exec.observe q
        modify fun s => { s with handling := s.handling.tail }
        g result)

theorem goes_on {P : Exec σ Flow → Prop} {f : Except Error Flow → Exec σ Flow} (raise : ∀ e, P (throw (.error e)))
    (rest : ∀ result, resultHalted result = false → P (f result))
    (ends : ∀ e, e.isHalted = true → f (.error e) = throw (.error e)) (result : Except Error Flow) : P (f result) := by
  cases halted : resultHalted result with
  | false => exact rest result halted
  | true =>
    cases result with
    | ok flow => cases halted
    | error e =>
      rw [ends e halted]
      exact raise e

-- The line that is known before a clause or a round: the first one has no checkpoint.
def entry (first : Bool) (line : Nat) : Option Nat := if first then some line else none

structure Executions (r : Rule σ τ) (c : Context σ) (d : Context τ) (fuel : Nat) : Prop where
  evaluations : ∀ line, Evaluations r c d line fuel
  block : ∀ stmts, blockFits r stmts → r.holds none none (execBlock c fuel stmts) (execBlock d fuel stmts)
  stmt : ∀ stmt : Stmt, kindFits r stmt.line stmt.kind → r.holds none none (exec c fuel stmt) (exec d fuel stmt)
  kind : ∀ line kind, kindFits r line kind → r.holds (some line) none (execKind c fuel line kind) (execKind d fuel line kind)
  arms : ∀ first line arms otherwise, (first = true → ∀ arm ∈ arms.head?, r.fits line arm.test) → armsFit r arms →
    suiteFits r otherwise → r.holds (entry first line) none (execArms c fuel first arms otherwise)
      (execArms d fuel first arms otherwise)
  rounds : ∀ first line test body, r.fits line test → blockFits r body → r.holds (entry first line) none
    (execWhile c fuel first line test body) (execWhile d fuel first line test body)
  passes : ∀ first line targets body values, (∀ t ∈ targets, Admits r line t) → blockFits r body →
    r.holds (entry first line) none (execFor c fuel first line targets body values)
      (execFor d fuel first line targets body values)
  guarded : ∀ body handler final, blockFits r body → handlerFits r handler → suiteFits r final →
    r.holds none none (execTry c fuel body handler final) (execTry d fuel body handler final)

variable {r : Rule σ τ} {c : Context σ} {d : Context τ} {fuel : Nat}

theorem executions_none (basic : Basic r) : Executions r c d 0 where
  evaluations _ := basic.evaluations_none
  block _ _ := by rw [execBlock]; exact basic.exhausted
  stmt _ _ := by rw [exec]; exact basic.exhausted
  kind _ _ _ := by rw [execKind]; exact basic.exhausted
  arms _ _ _ _ _ _ _ := by rw [execArms]; exact basic.exhausted
  rounds _ _ _ _ _ _ := by rw [execWhile]; exact basic.exhausted
  passes _ _ _ _ _ _ _ := by rw [execFor]; exact basic.exhausted
  guarded _ _ _ _ _ _ := by rw [execTry]; exact basic.exhausted

def isSimple : StmtKind → Bool
  | .ifChain _ _ | .whileLoop _ _ | .forLoop _ _ _ | .tryBlock _ _ _ | .raise none => false
  | _ => true

theorem simple_next {line : Nat} (closed : Closed r c d) (evaluations : Evaluations r c d line fuel)
    (define : ∀ f : Function, r.defines f →
      r.at line (modify fun s : Machine σ => { s with functions := s.functions.insert f.name f })
        (modify fun s : Machine τ => { s with functions := s.functions.insert f.name f }))
    {kind : StmtKind} (fits : kindFits r line kind) (simple : isSimple kind = true) :
    r.at line (execKind c (fuel + 1) line kind) (execKind d (fuel + 1) line kind) := by
  cases kind with
  | pass | «break» | «continue» =>
    exact closed.done _
  | expr e =>
    exact closed.next (evaluations.eval e fits) fun _ => closed.done _
  | assign targets e =>
    refine closed.next (evaluations.eval e fits.1) fun v => ?_
    exact closed.next (evaluations.assignAll targets v fits.2) fun _ => closed.done _
  | augAssign target op e =>
    refine closed.next (evaluations.eval _ fits.1) fun old => closed.next (evaluations.eval e fits.2.1) fun v => ?_
    refine closed.next (closed.operation _ (binary_fresh op old v)) fun made => ?_
    exact closed.next (evaluations.assign target made fits.2.2) fun _ => closed.done _
  | «return» value =>
    cases value with
    | none =>
      exact closed.done _
    | some e =>
      exact closed.next (evaluations.eval e (fits e rfl)) fun v => closed.done _
  | raise value =>
    cases value with
    | some e =>
      exact closed.next (evaluations.eval e (fits e rfl)) fun v => closed.fail _
    | none => cases simple
  | define f =>
    exact closed.next (define f fits) fun _ => closed.done _
  | load name =>
    exact closed.fail _
  | ifChain _ _ | whileLoop _ _ | forLoop _ _ _ | tryBlock _ _ _ => cases simple

section

variable (whole : Whole r c d)
include whole

theorem result_holds (result : Except Error Flow) : r.holds none none (Exec.ofResult result) (Exec.ofResult result) := by
  cases result with
  | ok flow => exact whole.done flow
  | error e => exact whole.raise e

variable (executions : Executions r c d fuel)
include executions

theorem block_next (stmts : List Stmt) (fits : blockFits r stmts) :
    r.holds none none (execBlock c (fuel + 1) stmts) (execBlock d (fuel + 1) stmts) := by
  cases stmts with
  | nil =>
    exact whole.done _
  | cons stmt rest =>
    rw [block_fits_cons] at fits
    refine whole.next (executions.stmt stmt fits.1) fun flow => ?_
    cases flow with
    | normal => exact executions.block rest fits.2
    | «break» | «continue» | «return» v => exact whole.done _

variable (first : Bool) (line : Nat)

theorem kind_next (kind : StmtKind) (fits : kindFits r line kind) :
    r.holds (some line) none (execKind c (fuel + 1) line kind) (execKind d (fuel + 1) line kind) := by
  have evaluations := executions.evaluations line
  have simple (simple : isSimple kind = true) := whole.forget (simple_next whole.toClosed evaluations (whole.define ·) fits simple)
  cases kind with
  | ifChain arms otherwise =>
    exact executions.arms true line arms otherwise (fun _ => fits.1) fits.2.1 fits.2.2
  | whileLoop test body =>
    exact executions.rounds true line test body fits.1 fits.2
  | forLoop targets source body =>
    refine whole.next (evaluations.eval source fits.1) fun v => ?_
    refine whole.next (whole.operation _ (iterate_fresh v)) fun values => ?_
    exact executions.passes true line targets body values fits.2.1 fits.2.2
  | tryBlock body handler final =>
    exact whole.enter (executions.guarded body handler final fits.1 fits.2.1 fits.2.2)
  | raise value =>
    cases value with
    | some e => exact simple rfl
    | none =>
      refine whole.look fun m n same _ => ?_
      have handling : m.handling = n.handling := congrArg Machine.handling same
      rw [handling]
      cases n.handling with
      | nil => exact whole.forget (whole.fail _)
      | cons e rest => exact whole.forget (whole.raise e)
  | pass | expr _ | assign _ _ | augAssign _ _ _ | «break» | «continue» | «return» _ | define _ | load _ => exact simple rfl

theorem arms_next (arms : List Arm) (otherwise : Option Suite)
    (here : first = true → ∀ arm ∈ arms.head?, r.fits line arm.test) (fit : armsFit r arms) (last : suiteFits r otherwise) :
    r.holds (entry first line) none (execArms c (fuel + 1) first arms otherwise)
      (execArms d (fuel + 1) first arms otherwise) := by
  cases arms with
  | nil =>
    cases otherwise with
    | none =>
      exact whole.forget (whole.done _)
    | some suite =>
      rw [suite_fits_some] at last
      exact whole.enter (whole.next (whole.checkpoint suite.line) fun _ => whole.enter (executions.block suite.body last))
  | cons arm rest =>
    rw [arms_fit_cons] at fit
    have goes (l : Nat) (fits : r.fits l arm.test) :
        r.holds (some l) none
          (do if (← eval c fuel arm.test).truthy then execBlock c fuel arm.body else execArms c fuel false rest otherwise)
          (do if (← eval d fuel arm.test).truthy then execBlock d fuel arm.body else execArms d fuel false rest otherwise) := by
      refine whole.next ((executions.evaluations l).eval arm.test fits) fun test => whole.enter ?_
      cases test.truthy with
      | true => exact executions.block arm.body fit.2.1
      | false => exact executions.arms false 0 rest otherwise nofun fit.2.2 last
    cases first with
    | true => exact goes line (here rfl arm rfl)
    | false => exact whole.next (whole.checkpoint arm.line) fun _ => goes arm.line fit.1

theorem rounds_next (test : Expr) (body : List Stmt) (fits : r.fits line test)
    (fit : blockFits r body) : r.holds (entry first line) none (execWhile c (fuel + 1) first line test body)
      (execWhile d (fuel + 1) first line test body) := by
  have goes : r.holds (some line) none (testRound c fuel line test body) (testRound d fuel line test body) := by
    refine whole.next ((executions.evaluations line).eval test fits) fun truth => whole.enter ?_
    cases truth.truthy with
    | false => exact whole.done _
    | true =>
      refine whole.next (executions.block body fit) fun flow => ?_
      cases flow with
      | normal | «continue» => exact executions.rounds false line test body fits fit
      | «break» | «return» v => exact whole.done _
  cases first with
  | true => exact goes
  | false => exact whole.next (whole.checkpoint line) fun _ => goes

theorem passes_next (targets : List Target) (body : List Stmt) (values : List Value)
    (admits : ∀ t ∈ targets, Admits r line t) (fit : blockFits r body) :
    r.holds (entry first line) none (execFor c (fuel + 1) first line targets body values)
      (execFor d (fuel + 1) first line targets body values) := by
  cases values with
  | nil =>
    exact whole.forget (whole.done _)
  | cons item rest =>
    have goes : r.holds (some line) none (itemRound c fuel line targets body item rest)
        (itemRound d fuel line targets body item rest) := by
      refine whole.next ((executions.evaluations line).assignAll targets item admits) fun _ => whole.enter ?_
      refine whole.next (executions.block body fit) fun flow => ?_
      cases flow with
      | normal | «continue» => exact executions.passes false line targets body rest admits fit
      | «break» | «return» v => exact whole.done _
    cases first with
    | true => exact goes
    | false => exact whole.next (whole.checkpoint line) fun _ => goes

theorem finish_next {final : Option Suite} (fits : suiteFits r final) (result : Except Error Flow) :
    r.holds none none (finish c fuel final result) (finish d fuel final result) := by
  have ends := result_holds whole result
  unfold finish
  cases final with
  | none => exact ends
  | some suite =>
    rw [suite_fits_some] at fits
    dsimp only
    split
    · exact ends
    · refine whole.next (whole.checkpoint suite.line) fun _ => whole.enter ?_
      refine whole.next (executions.block suite.body fits) fun flow => ?_
      cases flow with
      | normal => exact ends
      | «break» | «continue» | «return» v => exact whole.done _

theorem guarded_next (body : List Stmt) (handler : Option Handler) (final : Option Suite) (fits : blockFits r body)
    (caught : handlerFits r handler) (last : suiteFits r final) :
    r.holds none none (execTry c (fuel + 1) body handler final) (execTry d (fuel + 1) body handler final) := by
  have finishes := finish_next whole executions last
  refine whole.tried (executions.block body fits) (fun result live => ?_) (fun e dead => ?_)
  · cases handler with
    | none => cases result <;> exact finishes _
    | some handler =>
      cases result with
      | ok flow => exact finishes _
      | error e =>
        have catchable : e.isCatchable = true := by rw [Error.isCatchable, show e.isHalted = false from live]; rfl
        rw [handler_fits_some] at caught
        simp only [catchable]
        refine whole.next (whole.checkpoint handler.line) fun _ => ?_
        have handles : r.holds none none (handle c fuel handler.body final e) (handle d fuel handler.body final e) :=
          whole.handled e (executions.block handler.body caught.2) (fun result _ => finishes result) fun e dead =>
            ⟨finish_dead _ _ _ dead, finish_dead _ _ _ dead⟩
        cases named : handler.name with
        | none => exact whole.enter handles
        | some name => exact whole.next (whole.bind name _ (caught.1 name named)) fun _ => whole.enter handles
  · have passes : e.isCatchable = false := by rw [Error.isCatchable, dead]; rfl
    have ends := And.intro (finish_dead c fuel final dead) (finish_dead d fuel final dead)
    cases handler with
    | none => exact ends
    | some handler =>
      simp only [passes]
      exact ends

theorem executions_next (invokes : ∀ line m name f es ks, r.ordered (some line) m → m.functions.get? name = some f →
      r.fits line (.call (.name name) es ks) → r.at line (evalArgs c fuel es ks) (evalArgs d fuel es ks) →
      r.at line (evalArgs c fuel es ks >>= invoke c fuel f) (evalArgs d fuel es ks >>= invoke d fuel f)) :
    Executions r c d (fuel + 1) where
  evaluations line := evaluations_next whole.toClosed (executions.evaluations line) (invokes line)
  block := block_next whole executions
  stmt stmt fits := by
    exact whole.next (whole.checkpoint stmt.line) fun _ => whole.locate _ (executions.kind stmt.line stmt.kind fits)
  kind := kind_next whole executions
  arms := arms_next whole executions
  rounds := rounds_next whole executions
  passes := passes_next whole executions
  guarded := guarded_next whole executions

end

theorem executions_hold (whole : Whole r c d) (invokes : ∀ line fuel f args, Executions r c d fuel →
      r.at line (invoke c (fuel + 1) f args) (invoke d (fuel + 1) f args)) (fuel : Nat) :
    Executions r c d fuel ∧ ∀ line f args, r.at line (invoke c fuel f args) (invoke d fuel f args) := by
  induction fuel with
  | zero =>
    refine ⟨executions_none whole.toBasic, fun line f args => ?_⟩
    exact whole.exhausted
  | succ fuel ih =>
    obtain ⟨executions, called⟩ := ih
    refine ⟨executions_next whole executions fun line _ _ f _ _ _ _ _ given => ?_,
      fun line f args => invokes line fuel f args executions⟩
    exact whole.next given fun args => called line f args

end Interp

end Flowstep.Script
