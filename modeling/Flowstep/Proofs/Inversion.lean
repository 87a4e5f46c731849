import Flowstep.Script.Interp

/-!
What a run must have done to end as it did.
-/
namespace Flowstep.Script

theorem Frames.bind_depth (f : Frames) (name : String) (v : Value) : (f.bind name v).depth = f.depth := by
  obtain ⟨base, _ | ⟨frame, rest⟩⟩ := f <;> rfl

theorem Frames.rebind_depth (f : Frames) (name : String) (v : Value) : (f.rebind name v).depth = f.depth := by
  obtain ⟨base, _ | ⟨frame, rest⟩⟩ := f <;> unfold rebind <;> split <;> rfl

namespace Interp

variable {σ S α β : Type} {ctx : Context σ} {fuel : Nat} {m n : Machine σ}

def testRound (ctx : Context σ) (fuel line : Nat) (test : Expr) (body : List Stmt) : Exec σ Flow := do
  if (← eval ctx fuel test).truthy then
    match ← execBlock ctx fuel body with
    | .break => return .normal
    | .return v => return .return v
    | _ => execWhile ctx fuel false line test body
  else return .normal

def itemRound (ctx : Context σ) (fuel line : Nat) (targets : List Target) (body : List Stmt) (item : Value) (rest : List Value) :
    Exec σ Flow := do
  assignAll ctx fuel targets item
  match ← execBlock ctx fuel body with
  | .break => return .normal
  | .return v => return .return v
  | _ => execFor ctx fuel false line targets body rest

variable {f : α → EStateM Stop S β}

theorem bind_done {p : EStateM Stop S α} {b : β} {m n : S} (done : (p >>= f) m = .ok b n) :
    ∃ a k, p m = .ok a k ∧ f a k = .ok b n := by
  change EStateM.bind p f m = _ at done
  unfold EStateM.bind at done
  cases ran : p m with
  | ok a k =>
    rw [ran] at done
    exact ⟨a, k, rfl, done⟩
  | error stop k =>
    rw [ran] at done
    cases done

theorem bind_runs {p : EStateM Stop S α} {a : α} {m k : S} (ran : p m = .ok a k) :
    (p >>= f) m = f a k := by
  have same : EStateM.bind p f m = f a k := by simp only [EStateM.bind, ran]
  exact same

theorem bind_failed {p : EStateM Stop S α} {stop : Stop} {m n : S} (failed : (p >>= f) m = .error stop n) :
    p m = .error stop n ∨ ∃ a k, p m = .ok a k ∧ f a k = .error stop n := by
  change EStateM.bind p f m = _ at failed
  unfold EStateM.bind at failed
  cases ran : p m with
  | ok a k =>
    rw [ran] at failed
    exact .inr ⟨a, k, rfl, failed⟩
  | error other k =>
    rw [ran] at failed
    cases failed
    exact .inl rfl

variable {p : Exec σ α}

theorem map_error_failed {f : Error → Error} {e : Error} (failed : Exec.mapError f p m = .error (.error e) n) :
    ∃ inner, p m = .error (.error inner) n ∧ e = f inner := by
  unfold Exec.mapError at failed
  split at failed
  · rename_i inner k ran
    cases failed
    exact ⟨inner, ran, rfl⟩
  · rename_i other
    exact absurd failed (other e n)

theorem observe_failed {e : Error} : Exec.observe p m ≠ .error (.error e) n := by
  intro failed
  unfold Exec.observe at failed
  split at failed
  · cases failed
  · cases failed
  · rename_i other _
    cases failed
    exact absurd rfl (other e)

theorem host_failed {p : EStateM Stop (World σ) α} {stop : Stop} (failed : Exec.ofHost p m = .error stop n) :
    ∃ w, p m.world = .error stop w := by
  unfold Exec.ofHost at failed
  split at failed
  · cases failed
  · rename_i other w ran
    cases failed
    exact ⟨w, ran⟩

theorem map_error_done {f : Error → Error} {a : α} (done : Exec.mapError f p m = .ok a n) : p m = .ok a n := by
  unfold Exec.mapError at done
  split at done
  · cases done
  · exact done

theorem observe_done {result : Except Error α} (done : Exec.observe p m = .ok result n) :
    match result with
    | .ok a => p m = .ok a n
    | .error e => p m = .error (.error e) n := by
  unfold Exec.observe at done
  split at done <;> cases done <;> assumption

variable {line : Nat}

theorem checkpoint_done (done : checkpoint ctx line m = .ok () n) :
    n.frames = m.frames ∧ n.functions = m.functions := by
  obtain ⟨_, k, set, done⟩ := bind_done done
  cases set
  obtain ⟨_, k, look, done⟩ := bind_done done
  cases look
  unfold Exec.ofHost at done
  dsimp only at done
  split at done <;> cases done
  exact ⟨rfl, rfl⟩

variable {stmt : Stmt} {flow : Flow}

theorem stmt_done (done : exec ctx fuel stmt m = .ok flow n) :
    ∃ less k, fuel = less + 1 ∧ checkpoint ctx stmt.line m = .ok () k ∧
      execKind ctx less stmt.line stmt.kind k = .ok flow n := by
  cases fuel with
  | zero =>
    cases done
  | succ less =>
    obtain ⟨_, k, passed, done⟩ := bind_done done
    exact ⟨less, k, rfl, passed, map_error_done done⟩

theorem block_done {rest : List Stmt} (done : execBlock ctx fuel (stmt :: rest) m = .ok flow n) :
    ∃ less first k, fuel = less + 1 ∧ exec ctx less stmt m = .ok first k ∧
      (first = .normal ∧ execBlock ctx less rest k = .ok flow n ∨ first ≠ .normal ∧ flow = first ∧ n = k) := by
  cases fuel with
  | zero =>
    cases done
  | succ less =>
    obtain ⟨first, k, ran, done⟩ := bind_done done
    refine ⟨less, first, k, rfl, ran, ?_⟩
    cases first with
    | normal => exact .inl ⟨rfl, done⟩
    | «break» | «continue» | «return» v =>
      cases done
      exact .inr ⟨nofun, rfl, rfl⟩

theorem single_done (done : execBlock ctx fuel [stmt] m = .ok flow n) :
    ∃ less, fuel = less + 1 ∧ exec ctx less stmt m = .ok flow n := by
  obtain ⟨less, first, k, rfl, ran, done⟩ := block_done done
  refine ⟨less, rfl, ?_⟩
  rcases done with ⟨rfl, done⟩ | ⟨_, rfl, rfl⟩
  · cases less <;> simp only [execBlock] at done <;> cases done
    exact ran
  · exact ran

theorem block_append_done {front back : List Stmt} (done : execBlock ctx fuel (front ++ back) m = .ok flow n) :
    (∃ k, execBlock ctx fuel front m = .ok .normal k ∧ execBlock ctx (fuel - front.length) back k = .ok flow n) ∨
      flow ≠ .normal ∧ execBlock ctx fuel front m = .ok flow n := by
  induction front generalizing fuel m with
  | nil =>
    cases fuel with
    | zero =>
      cases done
    | succ less =>
      refine .inl ⟨m, ?_, done⟩
      rfl
  | cons stmt rest ih =>
    obtain ⟨less, first, k, rfl, ran, done⟩ := block_done done
    rcases done with ⟨rfl, done⟩ | ⟨other, rfl, rfl⟩
    · have starts : execBlock ctx (less + 1) (stmt :: rest) m = execBlock ctx less rest k := by
        exact bind_runs ran
      rw [starts, List.length_cons, Nat.add_sub_add_right]
      exact ih done
    · refine .inr ⟨other, ?_⟩
      rw [execBlock, bind_runs ran]
      cases flow with
      | normal => exact absurd rfl other
      | «break» | «continue» | «return» v => rfl

theorem pass_done (done : execKind ctx fuel line .pass m = .ok flow n) : flow = .normal ∧ n = m := by
  cases fuel with
  | zero =>
    cases done
  | succ less =>
    cases done
    exact ⟨rfl, rfl⟩

theorem assign_done {target : Target} {e : Expr} (done : execKind ctx fuel line (.assign [target] e) m = .ok flow n) :
    ∃ less v k, fuel = less + 2 ∧ flow = .normal ∧ eval ctx (less + 1) e m = .ok v k ∧ assign ctx less target v k = .ok () n := by
  cases fuel with
  | zero =>
    cases done
  | succ less =>
    obtain ⟨v, k, value, done⟩ := bind_done done
    obtain ⟨_, k', bound, done⟩ := bind_done done
    cases done
    cases less with
    | zero =>
      cases bound
    | succ less =>
      exact ⟨less, v, k, rfl, rfl, value, bound⟩

theorem define_done {f : Function} (done : execKind ctx fuel line (.define f) m = .ok flow n) :
    flow = .normal ∧ n = { m with functions := m.functions.insert f.name f } := by
  cases fuel with
  | zero =>
    cases done
  | succ less =>
    cases done
    exact ⟨rfl, rfl⟩

variable {name : String} {v : Value}

theorem bind_name_done (done : assign ctx fuel (.name name) v m = .ok () n) :
    n = { m with frames := m.frames.bind name v } := by
  cases fuel with
  | zero =>
    cases done
  | succ less =>
    cases done
    rfl

theorem name_done {w : Value} (bound : m.frames.lookup name = some v) (done : eval ctx fuel (.name name) m = .ok w n) :
    w = v ∧ n = m := by
  cases fuel with
  | zero =>
    cases done
  | succ less =>
    obtain ⟨found, k, look, done⟩ := bind_done done
    cases look
    rw [bound] at done
    cases done
    exact ⟨rfl, rfl⟩

theorem text_done {text : String} {w : Value} (done : eval ctx fuel (.lit (.str text)) m = .ok w n) :
    w = .str text ∧ n = m := by
  cases fuel with
  | zero =>
    cases done
  | succ less =>
    cases done
    exact ⟨rfl, rfl⟩

theorem set_entry_done {key : String} {entries : Dict Value} (other : name ≠ "gv")
    (held : m.frames.lookup name = some (.map entries))
    (done : assign ctx fuel (.index (.name name) (.lit (.str key))) v m = .ok () n) :
    n = { m with frames := m.frames.rebind name (.map (entries.insert key v)) } := by
  cases fuel with
  | zero =>
    cases done
  | succ less =>
    obtain ⟨w, k, written, asks⟩ := bind_done done
    obtain ⟨rfl, rfl⟩ := text_done written
    obtain ⟨onGlobals, k, look, finds⟩ := bind_done asks
    cases look
    rw [decide_eq_false other] at finds
    obtain ⟨place, k, path, updates⟩ := bind_done finds
    cases less with
    | zero =>
      cases path
    | succ less =>
      cases path
      obtain ⟨onGlobals, k, look, changes⟩ := bind_done updates
      cases look
      rw [decide_eq_false other] at changes
      obtain ⟨found, k, look, changes⟩ := bind_done changes
      cases look
      rw [held] at changes
      cases changes
      rfl

-- A final clause that can only end normally does not hide a failure of the statements before it.
theorem final_done {body : List Stmt} {suite : Suite}
    (plain : ∀ less k last n, execBlock ctx less suite.body k = .ok last n → last = .normal)
    (done : execKind ctx fuel line (.tryBlock body none (some suite)) m = .ok flow n) :
    ∃ less ended entered, fuel = less + 2 ∧ execBlock ctx less body m = .ok flow ended ∧
      checkpoint ctx suite.line ended = .ok () entered ∧ execBlock ctx less suite.body entered = .ok .normal n := by
  cases fuel with
  | zero =>
    cases done
  | succ fuel =>
    cases fuel with
    | zero =>
      cases done
    | succ less =>
      obtain ⟨result, ended, ran, done⟩ := bind_done done
      have ran := observe_done ran
      cases result with
      | error e =>
        change (if resultHalted _ = true then _ else _ : Exec σ Flow) ended = _ at done
        split at done
        · cases done
        · obtain ⟨_, entered, _, done⟩ := bind_done done
          obtain ⟨last, k, finished, done⟩ := bind_done done
          rw [plain less entered last k finished] at done
          cases done
      | ok how =>
        obtain ⟨_, entered, passed, done⟩ := bind_done (p := checkpoint ctx suite.line) done
        obtain ⟨last, k, finished, done⟩ := bind_done done
        rw [plain less entered last k finished] at done finished
        cases done
        exact ⟨less, ended, entered, rfl, ran, passed, finished⟩

theorem invoke_done {f : Function} {args : Args} {frame : Dict Value} (done : invoke ctx fuel f args m = .ok (v, frame) n) :
    ∃ less given flow k, fuel = less + 1 ∧ bindArguments f args = .ok given ∧
      execBlock ctx less f.body { m with frames := m.frames.push given } = .ok flow k ∧ frame = k.frames.current ∧
      n.world = k.world := by
  cases fuel with
  | zero =>
    cases done
  | succ less =>
    obtain ⟨_, k, look, done⟩ := bind_done done
    cases look
    split at done
    · cases done
    · cases fits : bindArguments f args with
      | error stop =>
        rw [fits] at done
        cases done
      | ok given =>
        rw [fits] at done
        obtain ⟨result, k, ran, done⟩ := bind_done (p := Exec.observe (execBlock ctx less f.body)) done
        have ran := observe_done ran
        cases result with
        | error e => cases done
        | ok flow =>
          refine ⟨less, given, flow, k, rfl, rfl, ran, ?_⟩
          cases flow <;> cases done <;> exact ⟨rfl, rfl⟩

end Interp

end Flowstep.Script
