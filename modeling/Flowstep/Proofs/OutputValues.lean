import Flowstep.Proofs.Skipping
import Flowstep.Proofs.Stacks
import Flowstep.Proofs.WrittenBack

/-!
The value of a call can be read under the name of its output, and it is given back unless the output is bound again.
-/
namespace Flowstep.Script.Interp

variable {σ : Type}

def fixing (name : String) : Spared := { fixed := [name] }

-- The machines that a script comes to from this one without binding the variable and without changing it in place.
inductive Onward (ctx : Context σ) (name : String) (m : Machine σ) : Machine σ → Prop where
  | here : Onward ctx name m m
  | block {n k} (fuel stmts) : Onward ctx name m n → blockFits (staying (fixing name) : Rule σ σ) stmts →
    Returns (execBlock ctx fuel stmts) n k → Onward ctx name m k
  | expr {n k} (fuel e) : Onward ctx name m n → Spares name e → Returns (eval ctx fuel e) n k → Onward ctx name m k
  | targets {n k} (fuel targets v) : Onward ctx name m n → (∀ t ∈ targets, Admits (staying (fixing name) : Rule σ σ) 0 t) →
    Returns (assignAll ctx fuel targets v) n k → Onward ctx name m k
  | checkpoint {n k} (line) : Onward ctx name m n → Returns (checkpoint ctx line) n k → Onward ctx name m k
  | handler {n} (h : Handler) (e) : Onward ctx name m n → h.name ≠ some name → Onward ctx name m (entered h e n)
  | left {n} : Onward ctx name m n → Onward ctx name m { n with handling := n.handling.tail }

theorem onward_keeps {ctx : Context σ} {name : String} {m n : Machine σ} (onward : Onward ctx name m n) :
    Keeps (fixing name) m.frames n.frames := by
  induction onward with
  | here => exact keeps_refl _ _
  | block fuel stmts _ fits ended ih =>
    exact keeps_trans ih (stays_returns ((keeping ctx fuel (fixing name)).block stmts fits) ended).frames
  | expr fuel e _ spares ended ih =>
    have stays := ((keeping ctx fuel (fixing name)).evaluations 0).eval e (List.forall_mem_singleton.mpr spares)
    exact keeps_trans ih (stays_returns stays ended).frames
  | targets fuel targets v _ admits ended ih =>
    have stays := ((keeping ctx fuel (fixing name)).evaluations 0).assignAll targets v admits
    exact keeps_trans ih (stays_returns stays ended).frames
  | checkpoint line _ ended ih => exact keeps_trans ih (stays_returns (stays_checkpoint ctx line) ended).frames
  | handler h e _ other ih =>
    refine keeps_trans ih ?_
    unfold entered
    dsimp only
    split
    · exact keeps_refl _ _
    · rename_i own named
      refine keeps_bind _ _ ⟨List.not_mem_nil, fun same => other ?_⟩
      rw [named, List.mem_singleton.mp same]
  | left _ ih => exact ih

theorem plain_spares {name : String} {e : Expr} (plain : Plain anyName e) : Spares name e := by
  induction plain with
  | lit v => exact .intro nofun nofun
  | name n => exact .intro nofun nofun
  | attr base a _ inner => exact .intro (List.forall_mem_singleton.mpr inner) nofun
  | item base index _ _ container key =>
    exact .intro (List.forall_mem_cons.mpr ⟨container, List.forall_mem_singleton.mpr key⟩) nofun
  | call n args kwargs _ _ _ _ positional keywords =>
    exact .intro (List.forall_mem_append.mpr ⟨positional, List.forall_mem_map.mpr keywords⟩) nofun
  | list items _ all => exact .intro all nofun
  | dict entries _ _ keys values =>
    refine .intro (List.forall_mem_flatMap.mpr fun entry member => ?_) nofun
    exact List.forall_mem_cons.mpr ⟨keys entry member, List.forall_mem_singleton.mpr (values entry member)⟩
  | bin op left right _ _ first second | cmp op left right _ _ first second =>
    exact .intro (List.forall_mem_cons.mpr ⟨first, List.forall_mem_singleton.mpr second⟩) nofun

end Flowstep.Script.Interp

namespace Flowstep.Code

open Flowstep.Flow (Fragment Statement Step Variable blockSteps)
open Context (argumentExprs)
open Script (Expr Frames Machine Rule Value anyName pathExpr)
open Script.Interp

section

variable {σ : Type} {ctx : Script.Context σ} {fuel : Nat} {c : Context} {params : List Variable} {statements : List Statement}
  {args out : Dict Value} {m n bound ended : Machine σ}

-- The run of a program up to the end of its flow, when the outputs are still to be given back.
def runFlow (ctx : Script.Context σ) (fuel : Nat) (c : Context) (params : List Variable) (statements : List Statement)
    (args : Dict Value) : Script.Exec σ Script.Flow := do
  let _ ← execBlock ctx fuel (translateProgram c params statements).body
  modify fun s => { s with frames := s.frames.push (.ofList [("args", .map args)]) }
  let _ ← execBlock ctx (fuel - 1) (loadStmts 2 params)
  checkpoint ctx (2 + params.length)
  execBlock ctx (fuel - (params.length + 5)) (⟨2 + params.length + 1, .pass⟩ :: translateAll c (2 + params.length + 2) statements)

theorem last_binding_given_back (named : ∀ v ∈ params, v.name ≠ "args")
    (free : ∀ s ∈ blockSteps statements, ∀ o ∈ s.outputs, o.target ≠ "args") {lines : List Line}
    (made : program c params statements = .ok lines) (top : m.frames.inner = []) {p : Variable} (output : p ∈ outputs params)
    (done : runProgram ctx fuel (translateProgram c params statements) args m = .ok out n) {how : Script.Flow}
    (flowDone : runFlow ctx fuel c params statements args m = .ok how ended) {v : Value}
    (held : bound.frames.current.get? p.name = some v) (onward : Onward ctx p.name bound ended) :
    out.get? p.name = some v := by
  obtain ⟨defined, loaded, started, left, flow, frame, defines, loads, enters, ran, alone, given⟩ :=
    program_done named free made top done
  have ends : runFlow ctx fuel c params statements args m = .ok flow left :=
    (bind_runs defines).trans ((bind_runs rfl).trans ((bind_runs loads).trans ((bind_runs enters).trans ran)))
  obtain ⟨_, rfl⟩ := EStateM.Result.ok.inj (ends.symm.trans flowDone)
  obtain ⟨value, known, same⟩ := given p output
  have keeps := onward_keeps onward
  cases split : bound.frames.inner with
  | nil =>
    rw [keeps.outside split] at alone
    cases alone
  | cons first others =>
    obtain ⟨later, splitLater, grown⟩ := keeps.inside first others split
    obtain rfl : frame = later := (List.cons.inj (alone.symm.trans splitLater)).1
    rw [Frames.current, split] at held
    rw [same, ← known, grown.fixed p.name List.mem_cons_self]
    exact held

end

theorem call_spares {c : Context} {name : String} {s : Step} (other : (keyPath s.key).head? ≠ some name) :
    Spares name (c.callExpr s) := by
  have keywords := plain_keywords free_known s free_reads c
  have spared : ∀ e ∈ [] ++ (argumentExprs s ++ c.optionExprs s ++ [c.placeExpr s]).map Prod.snd, Spares name e :=
    List.forall_mem_map.mpr fun k member => plain_spares (keywords k member)
  unfold Context.callExpr Context.callWith
  cases path : keyPath s.key with
  | nil => exact .intro spared nofun
  | cons root rest =>
    rw [path] at other
    rcases rest.eq_nil_or_concat with rfl | ⟨front, last, rfl⟩
    · exact .intro spared nofun
    · have attr : pathExpr (root :: front.concat last) = .attr (pathExpr (root :: front)) last := by simp [pathExpr]
      rw [attr]
      refine .intro (List.forall_mem_cons.mpr ⟨plain_spares (Script.plain_path anyName root front trivial), spared⟩) ?_
      rintro base method es ks same
      cases same
      rcases front.eq_nil_or_concat with rfl | ⟨most, final, rfl⟩
      · exact other
      · simp [pathExpr, Expr.root?]

-- A flow whose steps have other outputs, and are no calls on the variable, neither binds the variable nor changes it.
theorem flow_spares {σ : Type} {c : Context} {name : String} {rest : List Statement} {indent : Nat} {lines : List Line}
    (line : Nat) (unbound : ¬ Bindable (blockSteps rest) name) (ours : name ≠ "report" ∧ name ≠ "gv")
    (keys : ∀ s ∈ blockSteps rest, (keyPath s.key).head? ≠ some name) (made : emitAll c indent rest = .ok lines) :
    blockFits (staying (fixing name) : Rule σ σ) (translateAll c line rest) := by
  have suits : Suits (staying (fixing name) : Rule σ σ) c (blockSteps rest) fun n => (lines[n - line]?).bind Line.origin :=
    { plain := fun _ _ plain => List.forall_mem_singleton.mpr (plain_spares plain)
      report := fun _ kind record plain => List.forall_mem_singleton.mpr <| .intro
        (List.forall_mem_cons.mpr ⟨plain_spares (.name _ trivial), by simpa using plain_spares plain⟩)
        fun base method es ks same => by
          cases same
          exact fun root => ours.1 (Option.some.inj root).symm
      call := fun s inside _ _ => List.forall_mem_singleton.mpr (call_spares (keys s inside))
      free := fun other bindable => ⟨List.not_mem_nil, fun same => unbound (List.mem_singleton.mp same ▸ bindable)⟩
      table := List.forall_mem_singleton.mpr fun root => ours.2 (Option.some.inj root).symm }
  exact flow_fits suits (List.Subset.refl _) made fun i f origin => by simpa using origin

section

variable {σ : Type} {ctx : Script.Context σ} {m : Machine σ} {v : Value}

theorem settles_global {key : String} (free : m.frames.lookup "gv" = none) (held : m.world.globals.get? key = some v) :
    Settles (eval ctx · (globalExpr key)) m (.ok v m) := by
  refine settles_succ (fun fuel => by rw [globalExpr]) ?_
  have table : isGlobals "gv" m = .ok true m := by
    change EStateM.Result.ok (decide ("gv" = "gv") && (m.frames.lookup "gv").isNone) m = _
    rw [free]
    rfl
  refine settles_bind (settles_run table) ?_
  refine settles_bind (settles_lit ctx (.str key) m) (settles_bind (settles_fixed Script.Exec.globals m) ?_)
  have shown : (Value.str key).display = key := rfl
  simp only [shown, held]
  exact settles_fixed (pure v) m

-- The references that are to read an output: those to the project-wide variable of its name, or those to a variable of the
-- unit where there is none.
def Context.Reads (c : Context) (name : String) (f : Fragment) : Prop :=
  f.data = .str name ∧
    if c.globals.contains name then f.tag = .globalVariable else f.tag = .flowVariable ∨ f.tag = .parameter

theorem hold_current {c : Context} {name : String} (own : c.globals.contains name = false) :
    (c.hold name v m).frames.current.get? name = some v := by
  unfold Context.hold
  rw [if_neg (by simpa using own)]
  unfold Frames.bind
  cases m.frames.inner <;> exact Dict.get?_insert_self _ _ _

theorem output_read {c : Context} {name : String} {f : Fragment} (reads : c.Reads name f)
    (table : c.globals.contains name → m.frames.lookup "gv" = none) :
    Settles (eval ctx · (operandExpr [f])) (c.hold name v m) (.ok v (c.hold name v m)) := by
  obtain ⟨tag, data⟩ := f
  obtain ⟨rfl, kind⟩ := reads
  have holds := hold_holds c name v m
  unfold Context.targetAt at holds
  by_cases global : c.globals.contains name
  · rw [if_pos global] at kind holds
    obtain ⟨key, same, held⟩ := holds
    cases same
    obtain rfl : tag = .globalVariable := kind
    refine settles_global ?_ held
    unfold Context.hold
    rw [if_pos global]
    exact table global
  · rw [if_neg global] at kind holds
    have reference : operandExpr [⟨tag, .str name⟩] = .name name := by
      obtain rfl | rfl := kind <;> rfl
    rw [reference]
    exact settles_name ctx holds

end

end Flowstep.Code

namespace Flowstep.Project

open Flowstep.Flow (Output Statement Step Tables blockSteps)
open Code (operandExpr runFlow translateProgram)
open Script (Host Machine Program Value World)
open Script.Interp (Onward Settles bind_runs eval execBlock execKind)

def fetchUnit : UnitEntry :=
  { id := "p1", category := .process, params := [{ name := "found", direction := .output }],
    flow := [{ key := "Net.fetch", outputs := [{ value := .str "found" }] }, { key := "Net.close" }] }

def sevens : Host (List Script.Service) := Code.recorder fun _ => .ok (.int 7)

def fetchStep : Step := { key := "Net.fetch", line := 1, outputs := [{ name := "", target := "found" }] }

def closeStep : Step := { key := "Net.close", line := 2 }

def fetching (main : Script.Function) (found : Value) (log : List Script.Service) (line : Nat) : Machine (List Script.Service) :=
  { world := ⟨∅, log⟩, frames := ⟨∅, [.ofList [("args", .map ∅), ("found", found)]]⟩, functions := ⟨[("main", main)]⟩
    handling := [], line }

def fetchThenClose : List Statement := [.atomic fetchStep, .atomic closeStep]

def fetchContext : Code.Context := ⟨"p1", [], false⟩

def fetchHost : Script.Context (List Script.Service) := ⟨sevens, "p1"⟩

theorem fetch_flow_done : ∃ main, runFlow fetchHost 60 fetchContext fetchUnit.params fetchThenClose ∅ (.start ⟨∅, []⟩) =
    .ok .normal (fetching main (.int 7) [.call "Net.fetch", .call "Net.close"] 6) := by
  obtain ⟨main, defined⟩ : ∃ main, execBlock fetchHost 60
      (translateProgram fetchContext fetchUnit.params fetchThenClose).body (.start ⟨∅, []⟩) =
      .ok .normal { Machine.start ⟨∅, []⟩ with functions := ⟨[("main", main)]⟩, line := 1 } := ⟨_, rfl⟩
  have loads : execBlock fetchHost 59 (Code.loadStmts 2 fetchUnit.params)
      { fetching main .none [] 1 with frames := ⟨∅, [.ofList [("args", .map ∅)]]⟩ } = .ok .normal (fetching main .none [] 2) := rfl
  have entered : Script.Interp.checkpoint fetchHost 3 (fetching main .none [] 2) = .ok () (fetching main .none [] 3) := rfl
  have flow : execBlock fetchHost 54
      (⟨4, .pass⟩ :: Code.translateAll fetchContext 5 fetchThenClose) (fetching main .none [] 3) =
      .ok .normal (fetching main (.int 7) [.call "Net.fetch", .call "Net.close"] 6) := rfl
  exact ⟨main, (bind_runs defined).trans
    ((bind_runs rfl).trans ((bind_runs loads).trans ((bind_runs entered).trans flow)))⟩

theorem close_onward (main : Script.Function) : Onward fetchHost "found" (fetching main (.int 7) [.call "Net.fetch"] 5)
    (fetching main (.int 7) [.call "Net.fetch", .call "Net.close"] 6) := by
  have closes : execBlock fetchHost 52 (Code.translateAll fetchContext 6 [.atomic closeStep])
      (fetching main (.int 7) [.call "Net.fetch"] 5) =
      .ok .normal (fetching main (.int 7) [.call "Net.fetch", .call "Net.close"] 6) := rfl
  have emitted : Code.emitAll fetchContext 0 [.atomic closeStep] = .ok _ := rfl
  refine .block 52 _ .here (Code.flow_spares 6 ?_ (by decide) (by decide +kernel) emitted) (.inl ⟨_, closes⟩)
  rintro (head | listed | ⟨s, inside, given⟩)
  · exact absurd head (by decide)
  · exact absurd listed (by decide)
  · obtain rfl := List.mem_singleton.mp inside
    cases given

end Flowstep.Project
