import Flowstep.Proofs.Alike
import Flowstep.Proofs.Execution

/-!
A script against two hosts that answer alike.
-/
namespace Flowstep.Script

variable {σ τ α : Type}

namespace Interp

open Exec

variable {b : Bond σ τ} {h : Host σ} {k : Host τ} {unit : String}

def pairing (b : Bond σ τ) : Rule σ τ := { holds _ _ p q := Pair b p q }

theorem pair_checkpoint (twins : Twins b h k) (line : Nat) : Pair b (checkpoint ⟨h, unit⟩ line) (checkpoint ⟨k, unit⟩ line) := by
  refine pair_bind (pair_modify fun m n same => { same with line := rfl }) fun _ => ?_
  refine pair_get fun m n same => ?_
  have shallow := same.shallow
  rw [same.frames] at shallow ⊢
  exact pair_of_host (twins.checkpoint line _ shallow)

theorem dead_throw (e : Error) (dead : e.isHalted = true) {m : Machine σ} {n : Machine τ} (same : Same b.halted m n) :
    Alike (Same b.running) (Same b.halted) ((throw (Stop.error e) : Exec σ α) m) ((throw (Stop.error e) : Exec τ α) n) := by
  refine .error _ m n (fun live => ?_) (fun _ => same)
  exact absurd (dead.symm.trans live) (by decide)

-- A failure is handled as on the other side; a force-stop goes on from worlds that are tied loosely.
theorem pair_handled (e : Error) {p : Exec σ Flow} {q : Exec τ Flow} {f : Except Error Flow → Exec σ Flow}
    {g : Except Error Flow → Exec τ Flow} (inner : Pair b p q)
    (rest : ∀ result, resultHalted result = false → Pair b (f result) (g result))
    (ends : ∀ e, e.isHalted = true → f (.error e) = throw (.error e) ∧ g (.error e) = throw (.error e)) :
    Pair b
      (do
        modify fun s => { s with handling := e :: s.handling }
        let result ← observe p
        modify fun s => { s with handling := s.handling.tail }
        f result)
      (do
        modify fun s => { s with handling := e :: s.handling }
        let result ← observe q
        modify fun s => { s with handling := s.handling.tail }
        g result) := by
  have leaves : Pair b (modify fun s : Machine σ => { s with handling := s.handling.tail })
      (modify fun s : Machine τ => { s with handling := s.handling.tail }) :=
    pair_modify fun m n same => { same with handling := by rw [same.handling] }
  refine pair_bind (pair_modify fun m n same => ?_) fun _ => ?_
  · exact { same with handling := by rw [same.handling] }
  · refine pair_observe inner (fun flow => ?_) (fun e live => ?_) (fun e dead m n same => ?_)
    · exact pair_bind leaves fun _ => rest (.ok flow) rfl
    · exact pair_bind leaves fun _ => rest (.error e) live
    · rw [(ends e dead).1, (ends e dead).2]
      exact dead_throw e dead { same with handling := congrArg List.tail same.handling }

theorem popped {tied : World σ → World τ → Prop} {m : Machine σ} {n : Machine τ} (same : Same tied m n) :
    Same tied { m with frames := m.frames.pop } { n with frames := n.frames.pop } :=
  ⟨same.world, by rw [same.frames], same.functions, same.handling, same.line,
    Nat.le_trans (List.tail_sublist _).length_le same.shallow⟩

theorem pair_invoke {fuel : Nat} {f : Function} (args : Args)
    (body : Pair b (execBlock ⟨h, unit⟩ fuel f.body) (execBlock ⟨k, unit⟩ fuel f.body)) :
    Pair b (invoke ⟨h, unit⟩ (fuel + 1) f args) (invoke ⟨k, unit⟩ (fuel + 1) f args) := by
  intro m n same
  change Alike _ _ ((if maxCallDepth ≤ m.frames.depth then _ else _ : Exec σ _) m)
    ((if maxCallDepth ≤ n.frames.depth then _ else _ : Exec τ _) n)
  rw [← same.frames]
  split
  · exact pair_throw _ m n same
  rename_i deep
  cases bindArguments f args with
  | error stop => exact pair_throw stop m n same
  | ok frame =>
    have leaves {p : Dict Value → Exec σ (Value × Dict Value)} {q : Dict Value → Exec τ (Value × Dict Value)}
        (rest : ∀ frame, Pair b (p frame) (q frame)) :
        Pair b
          (do
            let frame := (← get).frames.current
            modify fun s => { s with frames := s.frames.pop }
            p frame)
          (do
            let frame := (← get).frames.current
            modify fun s => { s with frames := s.frames.pop }
            q frame) := by
      refine pair_get fun m n same => ?_
      rw [same.frames]
      exact pair_bind (pair_modify fun _ _ same => popped same) fun _ => rest _
    have pushed : Same b.running { m with frames := m.frames.push frame } { n with frames := n.frames.push frame } :=
      ⟨same.world, by rw [same.frames], same.functions, same.handling, same.line, Nat.lt_of_not_le deep⟩
    refine pair_observe body (fun flow => ?_) (fun e live => ?_) (fun e dead m n same => ?_) _ _ pushed
    · cases flow with
      | normal | «break» | «continue» | «return» v => exact leaves fun frame => pair_pure _
    · exact leaves fun frame => pair_throw _
    · exact dead_throw e.unwind dead (popped same)

theorem pair_basic : Basic (pairing b) where
  done a := pair_pure a
  after first second := pair_bind first fun a => second a trivial
  exhausted := pair_throw _
  look rest := pair_get fun m n same => by
    refine rest m n ?_ trivial
    unfold Machine.seen
    rw [same.frames, same.functions, same.handling, same.line, b.globals _ _ same.world]
  operation x _ := pair_of_except x
  store table := pair_modify fun _ _ same =>
    ⟨b.assigns _ _ table same.world, same.frames, same.functions, same.handling, same.line, same.shallow⟩

theorem pair_whole (twins : Twins b h k) (unit : String) : Whole (pairing b) ⟨h, unit⟩ ⟨k, unit⟩ where
  toBasic := pair_basic
  unit := rfl
  parts _ _ _ _ _ := trivial
  place f _ _ fresh _ := pair_basic.update (fun _ _ => pair_modify fun m n same =>
    ⟨same.world, by rw [same.frames], same.functions, same.handling, same.line, by rw [m.frames.rebind_depth]; exact same.shallow⟩)
    _ _ f fresh
  bind name v _ := pair_modify fun m _ same =>
    ⟨same.world, by rw [same.frames], same.functions, same.handling, same.line, by rw [m.frames.bind_depth]; exact same.shallow⟩
  callAtomic call _ := pair_map_error Error.unwind (fun _ => rfl) (pair_of_host (twins.callAtomic call))
  report level record := pair_of_host (twins.report level record)
  sleep seconds := pair_of_host (twins.sleep seconds)
  print text := pair_of_host (twins.print text)
  forget pair := pair
  enter pair := pair
  checkpoint line := pair_checkpoint twins line
  locate line _ _ inner := pair_map_error _ (fun e => locate_halted e unit line) inner
  define f _ := pair_modify fun _ _ same => ⟨same.world, same.frames, by rw [same.functions], same.handling, same.line, same.shallow⟩
  raise e := pair_throw (.error e)
  tried inner rest ends := by
    refine pair_observe inner (fun flow => rest (.ok flow) rfl) (fun e live => rest (.error e) live) fun e dead m n same => ?_
    rw [(ends e dead).1, (ends e dead).2]
    exact dead_throw e dead same
  handled e := pair_handled e

theorem pairing_lenient : Lenient (pairing b) := ⟨fun _ _ => trivial, fun _ => trivial, fun _ => trivial, fun _ => trivial⟩

theorem pairs_hold (twins : Twins b h k) (unit : String) (fuel : Nat) : Executions (pairing b) ⟨h, unit⟩ ⟨k, unit⟩ fuel ∧
    ∀ line f args, (pairing b).at line (invoke ⟨h, unit⟩ fuel f args) (invoke ⟨k, unit⟩ fuel f args) :=
  executions_hold (pair_whole twins unit) (fun _ _ f args run => pair_invoke args (run.block f.body (pairing_lenient.block _))) fuel

theorem pair_program (twins : Twins b h k) (unit : String) (fuel : Nat) (program : Program) (args : Dict Value) :
    Pair b (runProgram ⟨h, unit⟩ fuel program args) (runProgram ⟨k, unit⟩ fuel program args) := by
  obtain ⟨executions, called⟩ := pairs_hold twins unit fuel
  have main : Pair b (runMain ⟨h, unit⟩ fuel args) (runMain ⟨k, unit⟩ fuel args) := by
    refine pair_get fun m n same => ?_
    rw [same.functions]
    cases n.functions.get? "main" with
    | none => exact pair_pure args
    | some f =>
      refine pair_bind (called 0 f _) fun result => ?_
      dsimp only
      split
      · exact pair_pure _
      · exact pair_pure _
  refine pair_bind (executions.block program.body (pairing_lenient.block _)) fun flow => ?_
  cases flow with
  | normal | «break» | «continue» => exact main
  | «return» v => exact pair_pure args

end Interp

theorem program_matches {b : Bond σ τ} {h : Host σ} {k : Host τ} (twins : Twins b h k) (unit : String) (fuel : Nat)
    (program : Program) (args : Dict Value) :
    Matches b.running b.halted (program.run h unit fuel args) (program.run k unit fuel args) := by
  intro w v tied
  have ends := Interp.pair_program twins unit fuel program args (.start w) (.start v) ⟨tied, rfl, rfl, rfl, rfl, Nat.zero_le _⟩
  unfold Program.run
  generalize Interp.runProgram ⟨h, unit⟩ fuel program args (.start w) = left,
    Interp.runProgram ⟨k, unit⟩ fuel program args (.start v) = right at ends
  cases ends with
  | ok outputs m n same => exact .ok outputs _ _ same.world
  | error stop m n going past => exact .error stop _ _ (fun live => (going live).world) (fun dead => (past dead).world)

end Flowstep.Script
