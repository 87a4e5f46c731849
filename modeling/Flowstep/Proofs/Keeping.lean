import Flowstep.Proofs.Execution

/-!
What a script never loses.
-/
namespace Flowstep.Script

-- Variables that stay maps if they are maps, and variables that stay as they are.
structure Spared where
  maps : List String := []
  fixed : List String := []

structure Grows (spared : Spared) (a b : Dict Value) : Prop where
  bound : ∀ name, (a.get? name).isSome → (b.get? name).isSome
  maps : ∀ name ∈ spared.maps, ∀ v, a.get? name = some v → v.isMap = true → ∃ w, b.get? name = some w ∧ w.isMap = true
  fixed : ∀ name ∈ spared.fixed, b.get? name = a.get? name

theorem grows_refl (spared : Spared) (a : Dict Value) : Grows spared a a :=
  ⟨fun _ bound => bound, fun _ _ v held map => ⟨v, held, map⟩, fun _ _ => rfl⟩

variable {spared : Spared}

theorem grows_trans {a b c : Dict Value} (first : Grows spared a b) (second : Grows spared b c) :
    Grows spared a c := by
  refine ⟨fun name bound => second.bound name (first.bound name bound), fun name listed v held map => ?_,
    fun name listed => (second.fixed name listed).trans (first.fixed name listed)⟩
  obtain ⟨w, heldLater, mapLater⟩ := first.maps name listed v held map
  exact second.maps name listed w heldLater mapLater

theorem grows_insert {a : Dict Value} {name : String} {v : Value} (other : name ∉ spared.fixed)
    (kind : name ∈ spared.maps → ∀ old, a.get? name = some old → old.isMap = true → v.isMap = true) :
    Grows spared a (a.insert name v) := by
  refine ⟨?_, ?_, fun fixed listed => Dict.get?_insert_of_ne _ (ne_of_mem_of_not_mem listed other) _⟩
  · intro other bound
    by_cases same : other = name
    · subst same
      rw [Dict.get?_insert_self]
      rfl
    · rwa [Dict.get?_insert_of_ne _ same]
  · intro other listed old held map
    by_cases same : other = name
    · subst same
      exact ⟨v, Dict.get?_insert_self _ _ _, kind listed old held map⟩
    · exact ⟨old, by rw [Dict.get?_insert_of_ne _ same, held], map⟩

structure Keeps (spared : Spared) (f g : Frames) : Prop where
  inside : ∀ frame rest, f.inner = frame :: rest → ∃ later, g.inner = later :: rest ∧ Grows spared frame later
  outside : f.inner = [] → g.inner = []

theorem keeps_refl (spared : Spared) (f : Frames) : Keeps spared f f :=
  ⟨fun frame _ split => ⟨frame, split, grows_refl spared frame⟩, id⟩

theorem keeps_trans {f g h : Frames} (first : Keeps spared f g) (second : Keeps spared g h) :
    Keeps spared f h := by
  refine ⟨fun frame rest split => ?_, fun top => second.outside (first.outside top)⟩
  obtain ⟨middle, splitMiddle, grown⟩ := first.inside frame rest split
  obtain ⟨last, splitLast, more⟩ := second.inside middle rest splitMiddle
  exact ⟨last, splitLast, grows_trans grown more⟩

theorem keeps_bind (f : Frames) {name : String} (v : Value) (other : name ∉ spared.maps ∧ name ∉ spared.fixed) :
    Keeps spared f (f.bind name v) := by
  constructor
  · intro frame rest split
    refine ⟨frame.insert name v, ?_, grows_insert other.2 fun listed => absurd listed other.1⟩
    rw [Frames.bind, split]
  · intro top
    simp only [Frames.bind, top]

theorem keeps_rebind {f : Frames} {name : String} {old v : Value} (other : name ∉ spared.fixed) (held : f.lookup name = some old)
    (kind : old.isMap = true → v.isMap = true) : Keeps spared f (f.rebind name v) := by
  constructor
  · intro frame rest split
    have current : f.current = frame := by rw [Frames.current, split]; rfl
    unfold Frames.rebind
    split
    · refine ⟨frame.insert name v, by rw [Frames.bind, split], grows_insert other fun _ found heldFound map => ?_⟩
      rw [Frames.lookup, current, heldFound] at held
      cases held
      exact kind map
    · exact ⟨frame, split, grows_refl spared frame⟩
  · intro top
    unfold Frames.rebind
    split
    · simp only [Frames.bind, top]
    · exact top

def Expr.root? : Expr → Option String
  | .name n => some n
  | .index base _ => base.root?
  | _ => none

namespace Interp

variable {σ α β : Type} {ctx : Context σ} {fuel : Nat} {spared : Spared}

structure Kept (spared : Spared) (m n : Machine σ) : Prop where
  frames : Keeps spared m.frames n.frames
  handling : n.handling = m.handling

theorem kept_refl (m : Machine σ) : Kept spared m m := ⟨keeps_refl spared m.frames, rfl⟩

variable {m n : Machine σ}

theorem kept_trans {k : Machine σ} (first : Kept spared m n) (second : Kept spared n k) : Kept spared m k :=
  ⟨keeps_trans first.frames second.frames, second.handling.trans first.handling⟩

-- An ending that the script can go on from leaves what is kept.
def KeptBy (spared : Spared) (m : Machine σ) : EStateM.Result Stop (Machine σ) α → Prop
  | .ok _ n => Kept spared m n
  | .error (.error _) n => Kept spared m n
  | .error _ _ => True

def Stays (spared : Spared) (p : Exec σ α) : Prop := ∀ m, KeptBy spared m (p m)

theorem kept_by_error (stop : Stop) (kept : Kept spared m n) :
    KeptBy spared m (.error stop n : EStateM.Result Stop (Machine σ) α) := by
  cases stop with
  | error e => exact kept
  | abort => trivial
  | exhausted => trivial

theorem kept_by_trans {result : EStateM.Result Stop (Machine σ) α} (first : Kept spared m n)
    (second : KeptBy spared n result) : KeptBy spared m result := by
  cases result with
  | ok a k => exact kept_trans first second
  | error stop k =>
    cases stop with
    | error e => exact kept_trans first second
    | abort => trivial
    | exhausted => trivial

variable {p : Exec σ α}

theorem stays_done {a : α} (stays : Stays spared p) (done : p m = .ok a n) :
    Kept spared m n := by
  have kept := stays m
  rw [done] at kept
  exact kept

theorem stays_pure (a : α) : Stays spared (pure a : Exec σ α) := fun m => kept_refl m

theorem stays_throw (stop : Stop) : Stays spared (throw stop : Exec σ α) := fun m => kept_by_error stop (kept_refl m)

theorem stays_then {f : α → Exec σ β} (first : Stays spared p) (second : ∀ a m n, p m = .ok a n → Stays spared (f a)) :
    Stays spared (p >>= f) := by
  intro m
  change KeptBy spared m (EStateM.bind p f m)
  have start := first m
  unfold EStateM.bind
  cases ran : p m with
  | ok a n =>
    rw [ran] at start
    exact kept_by_trans start (second a m n ran n)
  | error stop n =>
    rw [ran] at start
    cases stop with
    | error e => exact start
    | abort => trivial
    | exhausted => trivial

theorem stays_bind {f : α → Exec σ β} (first : Stays spared p) (second : ∀ a, Stays spared (f a)) :
    Stays spared (p >>= f) := stays_then first fun a _ _ _ => second a

theorem stays_modify {f : Machine σ → Machine σ} (keeps : ∀ m, Kept spared m (f m)) :
    Stays spared (modify f : Exec σ Unit) := keeps

theorem stays_of_except (x : Except Stop α) : Stays spared (Exec.ofExcept x : Exec σ α) := by
  cases x with
  | ok a => exact stays_pure a
  | error stop => exact stays_throw stop

theorem stays_of_host {p : EStateM Stop (World σ) α} : Stays spared (Exec.ofHost p) := by
  intro m
  unfold Exec.ofHost
  cases p m.world with
  | ok a world => exact ⟨keeps_refl spared m.frames, rfl⟩
  | error stop world => exact kept_by_error stop ⟨keeps_refl spared m.frames, rfl⟩

theorem stays_map_error {f : Error → Error} (inner : Stays spared p) :
    Stays spared (Exec.mapError f p) := by
  intro m
  have kept := inner m
  unfold Exec.mapError
  cases ran : p m with
  | ok a n =>
    rw [ran] at kept
    exact kept
  | error stop n =>
    rw [ran] at kept
    cases stop with
    | error e => exact kept
    | abort => trivial
    | exhausted => trivial

theorem stays_observe (inner : Stays spared p) : Stays spared (Exec.observe p) := by
  intro m
  have kept := inner m
  unfold Exec.observe
  cases ran : p m with
  | ok a n =>
    rw [ran] at kept
    exact kept
  | error stop n =>
    rw [ran] at kept
    cases stop with
    | error e => exact kept
    | abort => trivial
    | exhausted => trivial

-- After an observed computation the script goes on only if it ended normally or failed.
theorem kept_by_observed {f : Except Error α → Exec σ β}
    (rest : ∀ result k, Exec.observe p n = .ok result k → KeptBy spared m (f result k)) :
    KeptBy spared m ((Exec.observe p >>= f) n) := by
  change KeptBy spared m (EStateM.bind (Exec.observe p) f n)
  unfold EStateM.bind
  cases ended : Exec.observe p n with
  | ok result k => exact rest result k ended
  | error stop k =>
    cases stop with
    | error e => exact absurd ended observe_failed
    | abort => trivial
    | exhausted => trivial

theorem stays_checkpoint (ctx : Context σ) (line : Nat) : Stays spared (checkpoint ctx line) := by
  refine stays_bind (stays_modify fun m => ⟨keeps_refl spared m.frames, rfl⟩) fun _ => ?_
  exact fun m => stays_of_host m

theorem update_map {f : Value → Except Stop (Value × α)} (map : ∀ v w a, f v = .ok (w, a) → v.isMap = true → w.isMap = true)
    {keys : List Value} {v w : Value} {a : α} (updated : updateAt f keys v = .ok (w, a)) (was : v.isMap = true) :
    w.isMap = true := by
  cases keys with
  | nil => exact map v w a updated was
  | cons key keys =>
    cases v with
    | map entries =>
      rw [updateAt] at updated
      split at updated
      · obtain ⟨_, _, updated⟩ := bind_ok updated
        cases updated
        rfl
      · cases updated
    | _ => cases was

theorem stays_place {root : String} {keys : List Value} {f : Value → Except Stop (Value × α)} (other : root ∉ spared.fixed)
    (map : ∀ v w a, f v = .ok (w, a) → v.isMap = true → w.isMap = true) :
    Stays spared (updatePlace root keys f : Exec σ α) := by
  refine stays_bind (fun m => kept_refl m) fun isGlobals => ?_
  cases isGlobals with
  | true =>
    cases keys with
    | nil => exact stays_throw _
    | cons first keys =>
      refine stays_bind (fun m => kept_refl m) fun globals => ?_
      cases globals.get? first.display with
      | none => exact stays_throw _
      | some v =>
        refine stays_bind (stays_of_except _) fun result => ?_
        exact stays_bind (stays_modify fun m => ⟨keeps_refl spared m.frames, rfl⟩) fun _ => stays_pure _
  | false =>
    intro m
    have looked : (Exec.lookup root : Exec σ (Option Value)) m = .ok (m.frames.lookup root) m := rfl
    rw [if_neg (by decide), bind_runs looked]
    cases held : m.frames.lookup root with
    | none => exact stays_throw _ m
    | some v =>
      dsimp only
      cases updated : updateAt f keys v with
      | error stop => exact stays_throw stop m
      | ok result =>
        refine ⟨keeps_rebind other held fun was => ?_, rfl⟩
        exact update_map map updated was

theorem stays_invoke {f : Function} (args : Args) (body : Stays {} (execBlock ctx fuel f.body)) :
    Stays spared (invoke ctx (fuel + 1) f args) := by
  refine stays_bind (fun m => kept_refl m) fun m => ?_
  split
  · exact stays_throw _
  · refine stays_bind (stays_of_except _) fun frame m => ?_
    have ran := stays_observe body { m with frames := m.frames.push frame }
    refine kept_by_observed fun result n ended => ?_
    rw [ended] at ran
    obtain ⟨later, split, _⟩ := ran.frames.inside frame m.frames.inner rfl
    have same : n.frames.pop.inner = m.frames.inner := congrArg List.tail split
    have restored : Kept spared m { n with frames := n.frames.pop } := by
      refine ⟨⟨fun outer others around => ⟨outer, ?_, grows_refl spared outer⟩, fun top => ?_⟩, ran.handling⟩
      · exact same.trans around
      · exact same.trans top
    cases result with
    | ok flow => cases flow <;> exact restored
    | error e => exact restored

theorem path_root {e : Expr} {root : String} {keys : List Value} (found : placePath ctx fuel e m = .ok (some (root, keys)) n) :
    e.root? = some root := by
  induction e using Expr.root?.induct generalizing fuel keys m n with
  | case1 name =>
    cases fuel <;> cases found
    rfl
  | case2 base index ih =>
    cases fuel with
    | zero => cases found
    | succ fuel =>
      obtain ⟨place, k, inner, found⟩ := bind_done found
      cases place with
      | none => cases found
      | some place =>
        obtain ⟨key, _, _, found⟩ := bind_done found
        cases found
        exact ih inner
  | case3 e named indexed =>
    cases e
    case name => exact absurd rfl (named _)
    case index => exact absurd rfl (indexed _ _)
    all_goals cases fuel <;> cases found

-- Methods are not called on the variable, nor on an item of it.
inductive Spares (name : String) : Expr → Prop where
  | intro {e : Expr} (parts : ∀ part ∈ e.parts, Spares name part)
    (calls : ∀ base method es ks, e = .call (.attr base method) es ks → base.root? ≠ some name) : Spares name e

def staying (spared : Spared) : Rule σ σ where
  holds _ _ p _ := Stays spared p
  known p a := ∃ m n, p m = .ok a n
  fits _ e := ∀ name ∈ spared.fixed, Spares name e
  free n := n ∉ spared.maps ∧ n ∉ spared.fixed
  changes e := ∀ name ∈ spared.fixed, e.root? ≠ some name

theorem none_fixed (P : String → Prop) : ∀ name ∈ ({} : Spared).fixed, P name := fun _ member => absurd member List.not_mem_nil

theorem staying_lenient : Lenient (staying {} : Rule σ σ) where
  fits _ _ := none_fixed _
  free _ := ⟨List.not_mem_nil, List.not_mem_nil⟩
  defines _ := trivial
  changes _ := none_fixed _

theorem stays_whole (ctx : Context σ) (spared : Spared) : Whole (staying spared) ctx ctx where
  done a := stays_pure a
  after first second := stays_then first fun a m n ran => second a ⟨m, n, ran⟩
  exhausted := stays_throw _
  look rest m := rest m m rfl trivial m
  operation x _ := stays_of_except x
  store _ := stays_modify fun m => ⟨keeps_refl spared m.frames, rfl⟩
  unit := rfl
  parts _ _ fits part member name listed := by
    obtain ⟨parts, _⟩ := fits name listed
    exact parts part member
  method fits name listed := by
    obtain ⟨_, calls⟩ := fits name listed
    exact calls _ _ _ _ rfl
  place f fixed known _ map := by
    obtain ⟨m, n, found⟩ := known
    exact stays_place (fun listed => fixed _ listed (path_root found)) map
  bind name v free := stays_modify fun m => ⟨keeps_bind m.frames v free, rfl⟩
  callAtomic _ _ := stays_map_error (stays_of_host)
  report _ _ := stays_of_host
  sleep _ := stays_of_host
  print _ := stays_of_host
  forget stays := stays
  enter stays := stays
  checkpoint line := stays_checkpoint ctx line
  locate _ _ _ inner := stays_map_error inner
  define _ _ := stays_modify fun m => ⟨keeps_refl spared m.frames, rfl⟩
  raise e := stays_throw _
  tried inner rest ends := stays_bind (stays_observe inner) (goes_on (fun _ => stays_throw _) rest fun e dead => (ends e dead).1)
  handled e p _ f _ inner rest ends m := by
    have ran := stays_observe inner { m with handling := e :: m.handling }
    refine kept_by_observed fun result n ended => ?_
    rw [ended] at ran
    have restored : Kept spared m { n with handling := n.handling.tail } := by
      refine ⟨ran.frames, ?_⟩
      rw [ran.handling]
      rfl
    exact kept_by_trans restored (goes_on (fun _ => stays_throw _) rest (fun e dead => (ends e dead).1) result _)

theorem keeping (ctx : Context σ) (fuel : Nat) (spared : Spared) : Executions (staying spared) ctx ctx fuel := by
  have inner (fuel : Nat) : Executions (staying {}) ctx ctx fuel :=
    (executions_hold (stays_whole ctx {}) (fun _ _ f args run => stays_invoke args (run.block f.body (staying_lenient.block _))) fuel).1
  refine (executions_hold (stays_whole ctx spared) (fun _ fuel f args _ => ?_) fuel).1
  exact stays_invoke args ((inner fuel).block f.body (staying_lenient.block _))

theorem eval_keeps {e : Expr} {v : Value} (done : eval ctx fuel e m = .ok v n) : Kept {} m n :=
  stays_done (((keeping ctx fuel {}).evaluations 0).eval e (none_fixed _)) done

theorem block_keeps {stmts : List Stmt} {flow : Flow} (fits : blockFits (staying spared : Rule σ σ) stmts)
    (done : execBlock ctx fuel stmts m = .ok flow n) : Kept spared m n :=
  stays_done ((keeping ctx fuel spared).block stmts fits) done

end Interp

end Flowstep.Script
