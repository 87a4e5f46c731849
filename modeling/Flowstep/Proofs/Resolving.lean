import Flowstep.Package.Resolver

/-!
Resolving with a package manager that is a part of something larger.
-/
namespace Flowstep.Package

variable {σ τ S T α β : Type}

inductive Agree (tied : S → T → Prop) : EStateM.Result Failure S α → EStateM.Result Failure T α → Prop where
  | ok (a : α) (s : S) (t : T) (tie : tied s t) : Agree tied (.ok a s) (.ok a t)
  | error (e : Failure) (s : S) (t : T) (tie : tied s t) : Agree tied (.error e s) (.error e t)

def Agrees (tied : S → T → Prop) (p : EStateM Failure S α) (q : EStateM Failure T α) : Prop :=
  ∀ s t, tied s t → Agree tied (p s) (q t)

section

variable {tied : S → T → Prop}

theorem agrees_pure (a : α) : Agrees tied (pure a) (pure a) := fun s t tie => .ok a s t tie

theorem agrees_throw {e : Failure} : Agrees tied (throw e : EStateM Failure S α) (throw e) :=
  fun s t tie => .error e s t tie

theorem agrees_bind {p : EStateM Failure S α} {q : EStateM Failure T α} {f : α → EStateM Failure S β}
    {g : α → EStateM Failure T β} (first : Agrees tied p q) (second : ∀ a, Agrees tied (f a) (g a)) :
    Agrees tied (p >>= f) (q >>= g) := by
  intro s t tie
  have ends := first s t tie
  change Agree tied (EStateM.bind p f s) (EStateM.bind q g t)
  unfold EStateM.bind
  generalize p s = left, q t = right at ends
  cases ends with
  | ok a s t tie => exact second a s t tie
  | error e s t tie => exact .error e s t tie

theorem agrees_get {f : S → EStateM Failure S α} {g : T → EStateM Failure T α}
    (rest : ∀ s t, tied s t → Agree tied (f s s) (g t t)) : Agrees tied (get >>= f) (get >>= g) := rest

end

structure Copies (tied : σ → τ → Prop) (m : Installer σ) (n : Installer τ) : Prop where
  installedVersion : ∀ name, Agrees tied (m.installedVersion name) (n.installedVersion name)
  download : ∀ spec dir index, Agrees tied (m.download spec dir index) (n.download spec dir index)
  installOffline : ∀ spec dir, Agrees tied (m.installOffline spec dir) (n.installOffline spec dir)
  install : ∀ spec index, Agrees tied (m.install spec index) (n.install spec index)

structure Beside (tied : σ → τ → Prop) (r : Resolver σ) (s : Resolver τ) : Prop where
  resolved : r.resolved = s.resolved
  tips : r.tips = s.tips
  manager : tied r.manager s.manager

namespace Resolver

variable {tied : σ → τ → Prop}

theorem agrees_ask {p : EStateM Failure σ α} {q : EStateM Failure τ α} (inner : Agrees tied p q) :
    Agrees (Beside tied) (ask p) (ask q) := by
  intro r s beside
  have ends := inner r.manager s.manager beside.manager
  unfold ask
  generalize p r.manager = left, q s.manager = right at ends
  cases ends with
  | ok a m n tie => exact .ok a _ _ ⟨beside.resolved, beside.tips, tie⟩
  | error e m n tie => exact .error e _ _ ⟨beside.resolved, beside.tips, tie⟩

theorem agrees_succeeds {p : EStateM Failure σ Unit} {q : EStateM Failure τ Unit} (inner : Agrees tied p q) :
    Agrees (Beside tied) (succeeds p) (succeeds q) := by
  intro r s beside
  have ends := inner r.manager s.manager beside.manager
  unfold succeeds
  generalize p r.manager = left, q s.manager = right at ends
  cases ends with
  | ok a m n tie => exact .ok true _ _ ⟨beside.resolved, beside.tips, tie⟩
  | error e m n tie => exact .ok false _ _ ⟨beside.resolved, beside.tips, tie⟩

theorem agrees_note {tip : Tip} : Agrees (Beside tied) (note tip) (note tip) :=
  fun _ _ beside => .ok () _ _ ⟨beside.resolved, congrArg (tip :: ·) beside.tips, beside.manager⟩

theorem agrees_remember {spec : String} : Agrees (Beside tied) (remember spec) (remember spec) :=
  fun _ _ beside => .ok () _ _ ⟨congrArg (spec :: ·) beside.resolved, beside.tips, beside.manager⟩

variable {m : Installer σ} {n : Installer τ} (copies : Copies tied m n)

include copies

theorem agrees_fetch {cacheDir spec : String} {index : Option String} :
    Agrees (Beside tied) (fetch m cacheDir spec index) (fetch n cacheDir spec index) := by
  refine agrees_bind (agrees_succeeds (agrees_bind (copies.download _ _ _) fun _ => copies.installOffline _ _)) fun cached => ?_
  cases cached with
  | true => exact agrees_pure ()
  | false => exact agrees_ask (copies.install _ _)

theorem agrees_resolve (cacheDir : String) (r : Requirement) :
    Agrees (Beside tied) (resolve m cacheDir r) (resolve n cacheDir r) := by
  have looks := agrees_ask (copies.installedVersion (Text.trim r.package))
  refine agrees_get fun x y beside => ?_
  rw [beside.resolved]
  split
  · exact agrees_pure _ x y beside
  · refine agrees_bind looks (fun there => ?_) x y beside
    cases there.filter r.isSatisfiedBy with
    | some version => exact agrees_bind (agrees_remember) fun _ => agrees_pure _
    | none =>
      refine agrees_bind (agrees_note) fun _ => agrees_bind (agrees_fetch copies) fun _ => ?_
      refine agrees_bind (agrees_note) fun _ => agrees_bind looks fun found => ?_
      cases found with
      | none => exact agrees_throw
      | some version =>
        dsimp only
        split
        · exact agrees_bind (agrees_remember) fun _ => agrees_pure _
        · exact agrees_throw

theorem agrees_resolve_all (cacheDir : String) (requirements : List Requirement) :
    Agrees (Beside tied) (resolveAll m cacheDir requirements) (resolveAll n cacheDir requirements) := by
  induction requirements with
  | nil => exact agrees_pure []
  | cons r rest ih =>
    exact agrees_bind (agrees_resolve copies cacheDir r) fun first => agrees_bind ih fun others => agrees_pure _

end Resolver

end Flowstep.Package
