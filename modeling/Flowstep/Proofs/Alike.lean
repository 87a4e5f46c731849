import Flowstep.Script.Interp

/-!
Two hosts that answer alike.
-/
namespace Flowstep.Script

variable {σ τ S T α β : Type}

def Stop.isHalted : Stop → Bool
  | .error e => e.isHalted
  | _ => false

-- The ends of two computations. `running` ties the states after every end but a force-stop.
inductive Alike (running halted : S → T → Prop) : EStateM.Result Stop S α → EStateM.Result Stop T α → Prop where
  | ok (a : α) (s : S) (t : T) (tied : running s t) : Alike running halted (.ok a s) (.ok a t)
  | error (stop : Stop) (s : S) (t : T) (going : stop.isHalted = false → running s t)
      (past : stop.isHalted = true → halted s t) : Alike running halted (.error stop s) (.error stop t)

def lastState : EStateM.Result Stop S α → S
  | .ok _ s => s
  | .error _ s => s

def mapState (f : S → T) : EStateM.Result Stop S α → EStateM.Result Stop T α
  | .ok a s => .ok a (f s)
  | .error stop s => .error stop (f s)

theorem alike_last {running halted : S → T → Prop} (loose : ∀ s t, running s t → halted s t)
    {left : EStateM.Result Stop S α} {right : EStateM.Result Stop T α} (ends : Alike running halted left right) :
    halted (lastState left) (lastState right) := by
  cases ends with
  | ok a s t tied => exact loose s t tied
  | error stop s t going past =>
    cases halts : stop.isHalted with
    | false => exact loose s t (going halts)
    | true => exact past halts

theorem alike_project {running halted : S → T → Prop} (loose : ∀ s t, running s t → halted s t) {f : T → S}
    (part : ∀ s t, halted s t → f t = s) {left : EStateM.Result Stop S α} {right : EStateM.Result Stop T α}
    (ends : Alike running halted left right) : mapState f right = left := by
  have same := part _ _ (alike_last loose ends)
  cases ends with
  | ok a s t tied => exact congrArg (EStateM.Result.ok a) same
  | error stop s t going past => exact congrArg (EStateM.Result.error stop) same

def Matches (running halted : S → T → Prop) (p : EStateM Stop S α) (q : EStateM Stop T α) : Prop :=
  ∀ s t, running s t → Alike running halted (p s) (q t)

section

variable {running halted : S → T → Prop}

theorem matches_pure (a : α) : Matches running halted (pure a : EStateM Stop S α) (pure a) :=
  fun s t tied => .ok a s t tied

theorem matches_throw (ends : ∀ s t, running s t → halted s t) (stop : Stop) :
    Matches running halted (throw stop : EStateM Stop S α) (throw stop) :=
  fun s t tied => .error stop s t (fun _ => tied) (fun _ => ends s t tied)

theorem matches_modify {f : S → S} {g : T → T} (keeps : ∀ s t, running s t → running (f s) (g t)) :
    Matches running halted (modify f : EStateM Stop S Unit) (modify g) := fun s t tied => .ok () _ _ (keeps s t tied)

theorem matches_bind {p : EStateM Stop S α} {q : EStateM Stop T α}
    {f : α → EStateM Stop S β} {g : α → EStateM Stop T β} (first : Matches running halted p q)
    (second : ∀ a, Matches running halted (f a) (g a)) : Matches running halted (p >>= f) (q >>= g) := by
  intro s t tied
  change Alike running halted (EStateM.bind p f s) (EStateM.bind q g t)
  unfold EStateM.bind
  generalize p s = left, q t = right, first s t tied = ends
  cases ends with
  | ok a s t tied => exact second a s t tied
  | error stop s t going past => exact .error stop s t going past

end

-- What ties two worlds together. The script itself changes nothing of a world but the project-wide variables.
structure Bond (σ τ : Type) where
  running : World σ → World τ → Prop
  halted : World σ → World τ → Prop
  ends : ∀ w v, running w v → halted w v
  globals : ∀ w v, running w v → w.globals = v.globals
  assigns : ∀ w v table, running w v → running { w with globals := table } { v with globals := table }

structure Twins (b : Bond σ τ) (h : Host σ) (k : Host τ) : Prop where
  checkpoint : ∀ line scope, scope.depth ≤ maxCallDepth →
    Matches b.running b.halted (h.checkpoint line scope) (k.checkpoint line scope)
  callAtomic : ∀ call, Matches b.running b.halted (h.callAtomic call) (k.callAtomic call)
  report : ∀ level record, Matches b.running b.halted (h.report level record) (k.report level record)
  sleep : ∀ seconds, Matches b.running b.halted (h.sleep seconds) (k.sleep seconds)
  print : ∀ text, Matches b.running b.halted (h.print text) (k.print text)

structure Same (tied : World σ → World τ → Prop) (m : Machine σ) (n : Machine τ) : Prop where
  world : tied m.world n.world
  frames : m.frames = n.frames
  functions : m.functions = n.functions
  handling : m.handling = n.handling
  line : m.line = n.line
  shallow : m.frames.depth ≤ maxCallDepth

namespace Exec

variable {b : Bond σ τ}

def Pair (b : Bond σ τ) (p : Exec σ α) (q : Exec τ α) : Prop := Matches (Same b.running) (Same b.halted) p q

theorem same_ends {m : Machine σ} {n : Machine τ} (same : Same b.running m n) : Same b.halted m n :=
  { same with world := b.ends _ _ same.world }

theorem pair_pure (a : α) : Pair b (pure a) (pure a) := matches_pure a

theorem pair_throw (stop : Stop) : Pair b (throw stop : Exec σ α) (throw stop) :=
  matches_throw (fun _ _ same => same_ends same) stop

variable {p : Exec σ α} {q : Exec τ α}

theorem pair_bind {f : α → Exec σ β} {g : α → Exec τ β} (first : Pair b p q) (second : ∀ a, Pair b (f a) (g a)) :
    Pair b (p >>= f) (q >>= g) := matches_bind first second

theorem pair_of_except (x : Except Stop α) : Pair b (ofExcept x : Exec σ α) (ofExcept x) := by
  cases x with
  | ok a => exact pair_pure a
  | error stop => exact pair_throw stop

theorem pair_of_host {p : EStateM Stop (World σ) α} {q : EStateM Stop (World τ) α}
    (answers : Matches b.running b.halted p q) : Pair b (ofHost p) (ofHost q) := by
  intro m n same
  unfold ofHost
  have ends := answers m.world n.world same.world
  generalize p m.world = left, q n.world = right at ends
  cases ends with
  | ok a w v tied => exact .ok a _ _ { same with world := tied }
  | error stop w v going past =>
    refine .error stop _ _ (fun live => ?_) (fun dead => ?_)
    · exact { same with world := going live }
    · exact { same with world := past dead }

theorem pair_map_error (f : Error → Error) (keeps : ∀ e, (f e).isHalted = e.isHalted) (inner : Pair b p q) :
    Pair b (mapError f p) (mapError f q) := by
  intro m n same
  unfold mapError
  have ends := inner m n same
  generalize p m = left, q n = right at ends
  cases ends with
  | ok a m n tied => exact .ok a m n tied
  | error stop m n going past =>
    cases stop with
    | error e =>
      refine .error _ m n (fun live => going ?_) (fun dead => past ?_)
      · exact (keeps e).symm.trans live
      · exact (keeps e).symm.trans dead
    | abort => exact .error _ m n going past
    | exhausted => exact .error _ m n going past

theorem pair_observe {f : Except Error α → Exec σ β} {g : Except Error α → Exec τ β} (inner : Pair b p q)
    (done : ∀ a, Pair b (f (.ok a)) (g (.ok a))) (failed : ∀ e, e.isHalted = false → Pair b (f (.error e)) (g (.error e)))
    (dead : ∀ e, e.isHalted = true → ∀ m n, Same b.halted m n →
      Alike (Same b.running) (Same b.halted) (f (.error e) m) (g (.error e) n)) :
    Pair b (observe p >>= f) (observe q >>= g) := by
  intro m n same
  change Alike _ _ (EStateM.bind (observe p) f m) (EStateM.bind (observe q) g n)
  unfold EStateM.bind observe
  have ends := inner m n same
  generalize p m = left, q n = right at ends
  cases ends with
  | ok a m n tied => exact done a m n tied
  | error stop m n going past =>
    cases stop with
    | error e =>
      cases halted : e.isHalted with
      | false => exact failed e halted m n (going halted)
      | true => exact dead e halted m n (past halted)
    | abort => exact .error _ m n going past
    | exhausted => exact .error _ m n going past

theorem pair_get {f : Machine σ → Exec σ β} {g : Machine τ → Exec τ β}
    (rest : ∀ m n, Same b.running m n → Pair b (f m) (g n)) : Pair b (get >>= f) (get >>= g) :=
  fun m n same => rest m n same m n same

theorem pair_modify {f : Machine σ → Machine σ} {g : Machine τ → Machine τ}
    (keeps : ∀ m n, Same b.running m n → Same b.running (f m) (g n)) : Pair b (modify f) (modify g) :=
  matches_modify keeps

end Exec

end Flowstep.Script
