import Flowstep.Package.Shelf
import Flowstep.Proofs.Resolving

/-!
What the resolver takes for installed.
-/
namespace Flowstep.Package

variable {σ α : Type}

def Requirement.Named (r : Requirement) : Prop := Text.trim r.package ≠ ""

instance (r : Requirement) : Decidable r.Named := inferInstanceAs (Decidable (_ ≠ _))

structure Call where
  operation : Operation
  subject : String
  answer : Except Failure (Option String)

@[simp] def Call.succeeds (c : Call) : Bool :=
  match c.answer with
  | .ok _ => true
  | .error _ => false

def noted (operation : Operation) (subject : String) (version : α → Option String) (p : EStateM Failure σ α) :
    EStateM Failure (σ × List Call) α := fun s =>
  match p s.1 with
  | .ok a t => .ok a (t, s.2 ++ [⟨operation, subject, .ok (version a)⟩])
  | .error e t => .error e (t, s.2 ++ [⟨operation, subject, .error e⟩])

def Installer.recorded (m : Installer σ) : Installer (σ × List Call) where
  installedVersion name := noted .version name id (m.installedVersion name)
  download spec dir index := noted .download spec (fun _ => none) (m.download spec dir index)
  installOffline spec dir := noted .offline spec (fun _ => none) (m.installOffline spec dir)
  install spec index := noted .install spec (fun _ => none) (m.install spec index)

theorem agrees_noted {operation : Operation} {subject : String} {version : α → Option String} (p : EStateM Failure σ α) :
    Agrees (fun s t => s = t.1) p (noted operation subject version p) := by
  rintro s t rfl
  unfold noted
  cases p t.1 with
  | ok a u => exact .ok a u _ rfl
  | error e u => exact .error e u _ rfl

theorem recorded_copies (m : Installer σ) : Copies (fun s t => s = t.1) m m.recorded where
  installedVersion _ := agrees_noted _
  download _ _ _ := agrees_noted _
  installOffline _ _ := agrees_noted _
  install _ _ := agrees_noted _

def Installer.Placed (m : Installer σ) (r : Requirement) (s : σ) : Prop :=
  (∃ dir t, m.installOffline r.installSpec dir t = .ok () s) ∨ ∃ index t, m.install r.installSpec index t = .ok () s

def Installer.Fails (m : Installer σ) (e : Failure) : Prop :=
  (∃ name s t, m.installedVersion name s = .error e t) ∨ ∃ spec index s t, m.install spec index s = .error e t

inductive Fetching (spec : String) : List Call → Except Failure Unit → Prop where
  | cached : Fetching spec [⟨.download, spec, .ok none⟩, ⟨.offline, spec, .ok none⟩] (.ok ())
  | undone (e : Failure) (ended : Except Failure Unit) :
    Fetching spec [⟨.download, spec, .ok none⟩, ⟨.offline, spec, .error e⟩, ⟨.install, spec, ended.map fun _ => none⟩] ended
  | direct (e : Failure) (ended : Except Failure Unit) :
    Fetching spec [⟨.download, spec, .error e⟩, ⟨.install, spec, ended.map fun _ => none⟩] ended

namespace Requirement

variable (r : Requirement)

@[simp] def asks (answer : Except Failure (Option String)) : Call := ⟨.version, Text.trim r.package, answer⟩

def verdict : Option String → Except Failure Resolution
  | none => .error (.install (Text.trim r.package) "package not found after install")
  | some v =>
    if r.isSatisfiedBy v then .ok (.installed v) else .error (.versionMismatch (Text.trim r.package) r.installSpec v)

@[simp] def kept (before : List String) : Except Failure Resolution → List String
  | .ok (.satisfied _) | .ok (.installed _) => r.installSpec :: before
  | _ => before

end Requirement

inductive Course (m : Installer σ) (r : Requirement) (before : List String) : List Call → Except Failure Resolution → Prop where
  | skipped (known : r.Named → r.installSpec ∈ before) : Course m r before [] (.ok .skipped)
  | unanswered (e : Failure) (fails : m.Fails e) : Course m r before [r.asks (.error e)] (.error e)
  | satisfied (named : r.Named) (v : String) (meets : r.isSatisfiedBy v) :
    Course m r before [r.asks (.ok (some v))] (.ok (.satisfied v))
  | failed (there : Option String) (unmet : there.filter r.isSatisfiedBy = none) (calls : List Call) (e : Failure)
    (fetching : Fetching r.installSpec calls (.error e)) (fails : m.Fails e) :
    Course m r before (r.asks (.ok there) :: calls) (.error e)
  | unchecked (there : Option String) (unmet : there.filter r.isSatisfiedBy = none) (calls : List Call) (e : Failure)
    (fetching : Fetching r.installSpec calls (.ok ())) (fails : m.Fails e) :
    Course m r before (r.asks (.ok there) :: (calls ++ [r.asks (.error e)])) (.error e)
  | checked (named : r.Named) (there : Option String) (unmet : there.filter r.isSatisfiedBy = none) (calls : List Call)
    (fetching : Fetching r.installSpec calls (.ok ())) (s t : σ) (placed : m.Placed r s) (found : Option String)
    (checks : m.installedVersion (Text.trim r.package) s = .ok found t) :
    Course m r before (r.asks (.ok there) :: (calls ++ [r.asks (.ok found)])) (r.verdict found)

inductive Ends {S : Type} (Q : Except Failure α → S → Prop) : EStateM.Result Failure S α → Prop where
  | ok (a : α) (s : S) (holds : Q (.ok a) s) : Ends Q (.ok a s)
  | error (e : Failure) (s : S) (holds : Q (.error e) s) : Ends Q (.error e s)

section

variable {S β : Type} {p : EStateM Failure S α} {f : α → EStateM Failure S β} {x z : S} {Q : Except Failure β → S → Prop}

theorem ends_bind {P : Except Failure α → S → Prop} (first : Ends P (p x)) (failed : ∀ e y, P (.error e) y → Q (.error e) y)
    (done : ∀ a y, P (.ok a) y → Ends Q (f a y)) : Ends Q ((p >>= f) x) := by
  change Ends Q (EStateM.bind p f x)
  unfold EStateM.bind
  generalize p x = ended at first
  cases first with
  | ok a y holds => exact done a y holds
  | error e y holds => exact .error e y (failed e y holds)

theorem ends_get {f : S → EStateM Failure S β} (rest : Ends Q (f x x)) : Ends Q ((get >>= f) x) := rest

theorem then_ok {b : β} (done : (p >>= f) x = .ok b z) : ∃ a y, p x = .ok a y ∧ f a y = .ok b z := by
  change EStateM.bind p f x = _ at done
  unfold EStateM.bind at done
  split at done
  · exact ⟨_, _, ‹_›, done⟩
  · cases done

end

abbrev Recorder (σ : Type) := Resolver (σ × List Call)

namespace Resolver

variable {m : Installer σ} {dir : String}

section

variable {x : Recorder σ} {Q : Except Failure α → Recorder σ → Prop}

theorem ends_note {f : Unit → EStateM Failure (Recorder σ) α} {tip : Tip}
    (rest : Ends Q (f () { x with tips := tip :: x.tips })) : Ends Q ((note tip >>= f) x) := rest

theorem ends_ask {operation : Operation} {subject : String} {version : α → Option String} {p : EStateM Failure σ α}
    (failed : ∀ e s, p x.manager.1 = .error e s →
      Q (.error e) { x with manager := (s, x.manager.2 ++ [⟨operation, subject, .error e⟩]) })
    (done : ∀ a s, p x.manager.1 = .ok a s →
      Q (.ok a) { x with manager := (s, x.manager.2 ++ [⟨operation, subject, .ok (version a)⟩]) }) :
    Ends Q (ask (noted operation subject version p) x) := by
  unfold ask noted
  cases ended : p x.manager.1 with
  | ok a s => exact .ok a _ (done a s ended)
  | error e s => exact .error e _ (failed e s ended)

end

structure Since (x : Recorder σ) (resolved : List String) (calls : List Call) (y : Recorder σ) : Prop where
  resolved : y.resolved = resolved
  calls : y.manager.2 = x.manager.2 ++ calls

def Fetched (m : Installer σ) (r : Requirement) (x : Recorder σ) (o : Except Failure Unit) (y : Recorder σ) : Prop :=
  ∃ calls, Since x x.resolved calls y ∧ Fetching r.installSpec calls o ∧ (o = .ok () → m.Placed r y.manager.1) ∧
    ∀ e, o = .error e → m.Fails e

theorem fetch_calls (r : Requirement) (index : Option String) (x : Recorder σ) :
    Ends (Fetched m r x) (fetch m.recorded dir r.installSpec index x) := by
  have directly (s : σ) (made : List Call)
      (fetching : ∀ o, Fetching r.installSpec (made ++ [⟨.install, r.installSpec, o.map fun _ => none⟩]) o) :
      Ends (Fetched m r x) (ask (m.recorded.install r.installSpec index) { x with manager := (s, x.manager.2 ++ made) }) := by
    refine ends_ask (fun e t fails => ?_) fun _ t done => ?_
    · exact ⟨_, ⟨rfl, List.append_assoc ..⟩, fetching (.error e), nofun, by rintro _ ⟨⟩; exact .inr ⟨_, _, _, _, fails⟩⟩
    · exact ⟨_, ⟨rfl, List.append_assoc ..⟩, fetching (.ok ()), fun _ => .inr ⟨_, _, done⟩, nofun⟩
  simp only [fetch, succeeds, bind, EStateM.bind, Installer.recorded, noted]
  cases downloads : m.download r.installSpec dir index x.manager.1 with
  | error e s => exact directly s _ (.direct e)
  | ok _ s =>
    cases unpacks : m.installOffline r.installSpec dir s with
    | error e t =>
      simp only [unpacks, List.append_assoc]
      exact directly t _ (.undone e)
    | ok _ t =>
      simp only [unpacks, List.append_assoc]
      exact .ok () _ ⟨_, ⟨rfl, rfl⟩, .cached, fun _ => .inl ⟨_, _, unpacks⟩, nofun⟩

theorem resolve_course (r : Requirement) (x : Recorder σ) :
    Ends (fun o y => ∃ calls, Course m r x.resolved calls o ∧ Since x (r.kept x.resolved o) calls y)
      (resolve m.recorded dir r x) := by
  have looks (y : Recorder σ) : Ends (fun o z => Since y y.resolved [r.asks o] z ∧ (∀ e, o = .error e → m.Fails e) ∧
      ∀ there, o = .ok there → m.installedVersion (Text.trim r.package) y.manager.1 = .ok there z.manager.1)
      (ask (m.recorded.installedVersion (Text.trim r.package)) y) := by
    refine ends_ask (fun e s fails => ⟨⟨rfl, rfl⟩, ?_, nofun⟩) fun there s done => ⟨⟨rfl, rfl⟩, nofun, ?_⟩
    · rintro _ ⟨⟩
      exact .inl ⟨_, _, _, fails⟩
    · rintro _ ⟨⟩
      exact done
  refine ends_get ?_
  split
  · rename_i known
    refine .ok _ _ ⟨[], .skipped fun named => ?_, rfl, (List.append_nil _).symm⟩
    rcases Bool.or_eq_true_iff.mp known with blank | held
    · exact absurd (String.isEmpty_iff.mp blank) named
    · exact List.contains_iff_mem.mp held
  rename_i asked
  have named : r.Named := fun blank => asked (by simp [blank])
  refine ends_bind (looks x) (fun e y ⟨since, fails, _⟩ => ⟨_, .unanswered e (fails e rfl), since⟩) ?_
  rintro there y ⟨first, -, -⟩
  cases unmet : there.filter r.isSatisfiedBy with
  | some v =>
    obtain ⟨rfl, meets⟩ := Option.filter_eq_some_iff.mp unmet
    exact .ok _ _ ⟨_, .satisfied named v meets, congrArg _ first.resolved, first.calls⟩
  | none =>
    refine ends_note (ends_bind (fetch_calls r _ _) ?_ ?_)
    · rintro e z ⟨calls, second, fetching, -, fails⟩
      exact ⟨_, .failed there unmet calls e fetching (fails e rfl), second.resolved.trans first.resolved,
        by simp [second.calls, first.calls]⟩
    rintro _ z ⟨calls, second, fetching, placed, -⟩
    have since {o : Except Failure (Option String)} {u : Recorder σ} {tips : List Tip}
        (third : Since { z with tips := tips } z.resolved [r.asks o] u) :
        Since x x.resolved (r.asks (.ok there) :: (calls ++ [r.asks o])) u :=
      ⟨third.resolved.trans (second.resolved.trans first.resolved), by simp [third.calls, second.calls, first.calls]⟩
    refine ends_note (ends_bind (looks _) (fun e u ⟨third, fails, _⟩ => ?_) ?_)
    · exact ⟨_, .unchecked there unmet calls e fetching (fails e rfl), since third⟩
    rintro found u ⟨third, -, checks⟩
    have course : Course m r x.resolved _ _ := .checked named there unmet calls fetching _ _ (placed rfl) found (checks _ rfl)
    cases found with
    | none => exact .error _ _ ⟨_, course, since third⟩
    | some v =>
      unfold Requirement.verdict at course
      dsimp only at course ⊢
      split at course
      · rw [if_pos ‹_›]
        exact .ok _ _ ⟨_, course, congrArg _ (since third).resolved, (since third).calls⟩
      · rw [if_neg ‹_›]
        exact .error _ _ ⟨_, course, since third⟩

theorem resolve_plain (r : Requirement) (x : Resolver σ) :
    Ends (fun o y => ∃ calls, Course m r x.resolved calls o ∧ y.resolved = r.kept x.resolved o) (resolve m dir r x) := by
  have alike := agrees_resolve (recorded_copies m) dir r x ⟨x.resolved, x.tips, (x.manager, [])⟩ ⟨rfl, rfl, rfl⟩
  have ends := @resolve_course _ m dir r ⟨x.resolved, x.tips, (x.manager, [])⟩
  generalize resolve m dir r x = plain, resolve m.recorded dir r _ = ended at alike ends
  cases ends with
  | ok found z told =>
    obtain ⟨calls, course, since⟩ := told
    cases alike with
    | ok _ y _ beside => exact .ok found y ⟨calls, course, beside.resolved.trans since.resolved⟩
  | error e z told =>
    obtain ⟨calls, course, since⟩ := told
    cases alike with
    | error _ y _ beside => exact .error e y ⟨calls, course, beside.resolved.trans since.resolved⟩

end Resolver

structure Attempt where
  requirement : Requirement
  calls : List Call
  outcome : Except Failure Resolution
  before : List String
  after : List String

namespace Attempt

@[simp] def Trusts (a : Attempt) (v : String) : Prop := a.outcome = .ok (.satisfied v) ∨ a.outcome = .ok (.installed v)

structure Sound (a : Attempt) : Prop where
  failed : ∀ e, a.outcome = .error e → a.after = a.before
  trusted : ∀ v, a.Trusts v → a.requirement.isSatisfiedBy v ∧ a.requirement.asks (.ok (some v)) ∈ a.calls ∧
    a.after = a.requirement.installSpec :: a.before
  skipped : a.outcome = .ok .skipped → a.calls = [] ∧ a.after = a.before ∧
    (a.requirement.Named → a.requirement.installSpec ∈ a.before)
  offline : (∃ c ∈ a.calls, c.operation = .offline) ↔ ∃ c ∈ a.calls, c.operation = .download ∧ c.succeeds
  direct : (∃ c ∈ a.calls, c.operation = .install) ↔
    ∃ c ∈ a.calls, (c.operation = .download ∨ c.operation = .offline) ∧ !c.succeeds
  content : ∀ v, a.calls.head? = some (a.requirement.asks (.ok (some v))) → a.requirement.isSatisfiedBy v →
    ∀ c ∈ a.calls, c.operation = .version
  ordered : (a.calls.map (·.operation)).Sublist [.version, .download, .offline, .install, .version]

variable {m : Installer σ} {r : Requirement} {before : List String} {calls : List Call} {outcome : Except Failure Resolution}

-- The calls of an attempt that fetches: a question for the version, the fetching, and at most a question more.
theorem sound_of_fetching {there : Option String} {ended : Except Failure Unit} {checks : List Call}
    (unmet : there.filter r.isSatisfiedBy = none) (fetching : Fetching r.installSpec calls ended)
    (asked : checks = [] ∨ ∃ answer, checks = [r.asks answer]) (fetched : outcome ≠ .ok .skipped)
    (trusted : ∀ v, outcome = .ok (.satisfied v) ∨ outcome = .ok (.installed v) →
      r.isSatisfiedBy v ∧ r.asks (.ok (some v)) ∈ checks) :
    Sound ⟨r, r.asks (.ok there) :: (calls ++ checks), outcome, before, r.kept before outcome⟩ where
  failed e failed := by
    obtain rfl : outcome = .error e := failed
    rfl
  trusted v trusts := by
    obtain ⟨meets, answered⟩ := trusted v trusts
    refine ⟨meets, List.mem_cons_of_mem _ (List.mem_append_right _ answered), ?_⟩
    obtain rfl | rfl : outcome = .ok (.satisfied v) ∨ outcome = .ok (.installed v) := trusts <;> rfl
  skipped ended := absurd ended fetched
  offline := by rcases asked with rfl | ⟨_, rfl⟩ <;> cases fetching <;> simp
  direct := by rcases asked with rfl | ⟨_, rfl⟩ <;> cases fetching <;> simp
  content v first meets := by
    obtain rfl : there = some v := by simpa using first
    exact absurd meets (by simpa using unmet)
  ordered := by rcases asked with rfl | ⟨_, rfl⟩ <;> cases fetching <;> simp

theorem sound_of_course (course : Course m r before calls outcome) :
    Sound ⟨r, calls, outcome, before, r.kept before outcome⟩ := by
  cases course with
  | skipped known => constructor <;> simp_all
  | unanswered e fails => constructor <;> simp
  | satisfied named v meets => constructor <;> simp_all
  | failed there unmet calls e fetching fails =>
    have sound : Sound ⟨r, r.asks (.ok there) :: (calls ++ []), .error e, before, before⟩ :=
      sound_of_fetching unmet fetching (.inl rfl) nofun (by simp)
    rwa [List.append_nil] at sound
  | unchecked there unmet calls e fetching fails => exact sound_of_fetching unmet fetching (.inr ⟨_, rfl⟩) nofun (by simp)
  | checked named there unmet calls fetching s t placed found checks =>
    refine sound_of_fetching unmet fetching (.inr ⟨_, rfl⟩) ?_ fun v trusts => ?_
    · unfold Requirement.verdict
      split
      · exact nofun
      · split <;> exact nofun
    · unfold Requirement.verdict at trusts
      split at trusts
      · simp at trusts
      · split at trusts
        · rename_i v meets
          simp_all
        · simp at trusts

theorem mem_after {a : Attempt} (sound : a.Sound) {spec : String} (held : spec ∈ a.after) :
    spec ∈ a.before ∨ a.requirement.installSpec = spec ∧ ∃ v, a.Trusts v := by
  rcases ended : a.outcome with e | _ | v | v
  · exact .inl (sound.failed e ended ▸ held)
  · exact .inl ((sound.skipped ended).2.1 ▸ held)
  all_goals
    have trusts : a.Trusts v := by simp [ended]
    rw [(sound.trusted v trusts).2.2, List.mem_cons] at held
    exact held.symm.imp_right fun same => ⟨same.symm, v, trusts⟩

end Attempt

namespace Resolver

variable {m : Installer σ} {dir : String}

def attempts (m : Installer σ) (dir : String) : List Requirement → Recorder σ → List Attempt
  | [], _ => []
  | r :: rest, x =>
    match resolve m.recorded dir r { x with manager := (x.manager.1, []) } with
    | .ok found y => ⟨r, y.manager.2, .ok found, x.resolved, y.resolved⟩ :: attempts m dir rest y
    | .error e y => ⟨r, y.manager.2, .error e, x.resolved, y.resolved⟩ :: attempts m dir rest y

theorem attempts_cons (r : Requirement) (rest : List Requirement) (x : Recorder σ) :
    ∃ a y, attempts m dir (r :: rest) x = a :: attempts m dir rest y ∧ a.requirement = r ∧ a.Sound ∧ a.before = x.resolved ∧
      y.resolved = a.after := by
  have ends := @resolve_course _ m dir r { x with manager := (x.manager.1, []) }
  rw [attempts]
  generalize resolve m.recorded dir r { x with manager := (x.manager.1, []) } = ended at ends
  cases ends
  all_goals
    rename_i told
    obtain ⟨_, course, held, called⟩ := told
    refine ⟨_, _, rfl, rfl, ?_, rfl, rfl⟩
    rw [held, called]
    exact Attempt.sound_of_course course

-- What counts as resolved at a request was resolved at the start, or an earlier one trusted it.
theorem attempts_sound (rs : List Requirement) (x : Recorder σ) (i : Nat) (r : Requirement) (asked : rs[i]? = some r) :
    ∃ a, (attempts m dir rs x)[i]? = some a ∧ a.requirement = r ∧ a.Sound ∧ ∀ spec ∈ a.before, spec ∈ x.resolved ∨
      ∃ j < i, ∃ b, (attempts m dir rs x)[j]? = some b ∧ b.requirement.installSpec = spec ∧ ∃ v, b.Trusts v := by
  induction rs generalizing x i with
  | nil => cases asked
  | cons q rest ih =>
    obtain ⟨first, y, split, same, sound, before, after⟩ := @attempts_cons _ m dir q rest x
    rw [split]
    cases i with
    | zero =>
      cases asked
      exact ⟨first, rfl, same, sound, fun spec held => .inl (before ▸ held)⟩
    | succ i =>
      obtain ⟨a, made, same, good, earlier⟩ := ih y i asked
      refine ⟨a, made, same, good, fun spec held => ?_⟩
      rcases earlier spec held with old | ⟨j, below, b, found, rest⟩
      · rw [← before]
        exact (Attempt.mem_after sound (after ▸ old)).imp_right fun trusts => ⟨0, Nat.succ_pos i, first, rfl, trusts⟩
      · exact .inr ⟨j + 1, Nat.succ_lt_succ below, b, found, rest⟩

theorem resolve_all_failed {r : Requirement} {pre post : List Requirement} {x y z : Resolver σ} {found : List Resolution}
    {e : Failure}
    (before : resolveAll m dir pre x = .ok found y) (fails : resolve m dir r y = .error e z) :
    resolveAll m dir (pre ++ r :: post) x = .error e z := by
  induction pre generalizing x found with
  | nil =>
    cases before
    simp [resolveAll, bind, EStateM.bind, fails]
  | cons q rest ih =>
    obtain ⟨_, _, first, before⟩ := then_ok before
    obtain ⟨_, _, others, before⟩ := then_ok before
    cases before
    simp [resolveAll, bind, EStateM.bind, first, ih others]

theorem only_verified_installs_are_trusted (m : Installer σ) (dir : String) (st : σ) (rs : List Requirement) :
    (∀ (i : Nat) (r : Requirement), rs[i]? = some r → ∃ a : Attempt, (attempts m dir rs { manager := (st, []) })[i]? = some a ∧
      a.requirement = r ∧ a.Sound ∧ (a.outcome = .ok .skipped → r.Named →
        ∃ j < i, ∃ b : Attempt, (attempts m dir rs { manager := (st, []) })[j]? = some b ∧
          b.requirement.installSpec = r.installSpec ∧ ∃ v, b.Trusts v)) ∧
    (∀ pre r post x y z found e, rs = pre ++ r :: post → resolveAll m.recorded dir pre x = .ok found y →
      resolve m.recorded dir r y = .error e z → resolveAll m.recorded dir rs x = .error e z) ∧
    ∀ r, Agrees (Beside fun s t => s = t.1) (resolve m dir r) (resolve m.recorded dir r) := by
  refine ⟨fun i r asked => ?_, ?_, agrees_resolve (recorded_copies m) dir⟩
  · obtain ⟨a, made, rfl, sound, earlier⟩ := attempts_sound rs _ i r asked
    refine ⟨a, made, rfl, sound, fun skipped named => ?_⟩
    exact (earlier _ ((sound.skipped skipped).2.2 named)).resolve_left List.not_mem_nil
  · rintro pre r post x y z found e rfl before fails
    exact resolve_all_failed before fails

end Resolver

end Flowstep.Package
