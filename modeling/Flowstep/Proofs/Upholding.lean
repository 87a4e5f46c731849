import Flowstep.Proofs.Halting
import Flowstep.Proofs.PlainCode

/-!
What a script upholds while it runs against a watched host: every operation that was asked for is a good one.
-/
namespace Flowstep.Script.Interp

variable {σ α β : Type} {good : AtomicCall → Prop}

def Asked (good : AtomicCall → Prop) (m : Machine (σ × List (Answered σ))) : Prop :=
  ∀ call ∈ callsOf m.world.host.2, good call

-- The script is inside its only function, which has one parameter, and on the line if it is known.
structure Ordered (i : Option Nat) (m : Machine Unit) : Prop where
  functions : ∀ n f, m.functions.get? n = some f → n = "main" ∧ f.params = ["args"]
  args : ∃ frame rest, m.frames.inner = frame :: rest ∧ (frame.get? "args").isSome
  here : ∀ line ∈ i, m.line = line

structure Upheld (good : AtomicCall → Prop) (i : Option Nat) (m : Machine (σ × List (Answered σ))) : Prop where
  calls : Asked good m
  ordered : Ordered i m.seen

theorem upheld_forget {i : Option Nat} (m : Machine (σ × List (Answered σ))) (held : Upheld good i m) : Upheld good none m :=
  ⟨held.calls, held.ordered.functions, held.ordered.args, nofun⟩

def Leads (E I : Machine (σ × List (Answered σ)) → Prop) (p : Exec (σ × List (Answered σ)) α)
    (J : Machine (σ × List (Answered σ)) → Prop) : Prop :=
  ∀ m, I m → match p m with
    | .ok _ n => J n
    | .error _ n => E n

section

variable {E F I J K : Machine (σ × List (Answered σ)) → Prop}

theorem leads_pure (a : α) (holds : ∀ m, I m → J m) : Leads E I (pure a) J := fun m held => holds m held

theorem leads_done (a : α) : Leads E I (pure a) I := leads_pure a fun _ held => held

theorem leads_throw (stop : Stop) (holds : ∀ m, I m → E m) :
    Leads E I (throw stop : Exec (σ × List (Answered σ)) α) J := fun m held => holds m held

variable {p : Exec (σ × List (Answered σ)) α}

theorem leads_weaken (leads : Leads E I p J) (stops : ∀ m, E m → F m) (later : ∀ m, J m → K m) : Leads F I p K := by
  intro m held
  have ends := leads m held
  generalize p m = r at ends
  cases r with
  | ok a n => exact later n ends
  | error stop n => exact stops n ends

theorem leads_then {f : α → Exec (σ × List (Answered σ)) β} (first : Leads E I p J)
    (second : ∀ a m n, I m → p m = .ok a n → Leads E J (f a) K) : Leads E I (p >>= f) K := by
  intro m held
  change match EStateM.bind p f m with | .ok _ n => K n | .error _ n => E n
  unfold EStateM.bind
  have ends := first m held
  cases ran : p m with
  | ok a n =>
    rw [ran] at ends
    exact second a m n held ran n ends
  | error stop n =>
    rw [ran] at ends
    exact ends

theorem leads_bind {f : α → Exec (σ × List (Answered σ)) β} (first : Leads E I p J) (second : ∀ a, Leads E J (f a) K) :
    Leads E I (p >>= f) K := leads_then first fun a _ _ _ _ => second a

theorem leads_get {f : Machine (σ × List (Answered σ)) → Exec (σ × List (Answered σ)) α}
    (rest : ∀ m, I m → Leads E I (f m) J) : Leads E I (get >>= f) J := fun m held => rest m held m held

theorem leads_modify {f : Machine (σ × List (Answered σ)) → Machine (σ × List (Answered σ))}
    (holds : ∀ m, I m → J (f m)) : Leads E I (modify f) J := fun m held => holds m held

theorem leads_map_error {f : Error → Error} (leads : Leads E I p J) :
    Leads E I (Exec.mapError f p) J := by
  intro m held
  unfold Exec.mapError
  have ends := leads m held
  generalize p m = r at ends
  cases r with
  | ok a n => exact ends
  | error stop n => cases stop <;> exact ends

theorem leads_observe (leads : Leads J I p J) : Leads J I (Exec.observe p) J := by
  intro m held
  unfold Exec.observe
  have ends := leads m held
  generalize p m = r at ends
  cases r with
  | ok a n => exact ends
  | error stop n => cases stop <;> exact ends

end

theorem inner_bound {frames : Frames} (name other : String) (v : Value)
    (bound : ∃ frame rest, frames.inner = frame :: rest ∧ (frame.get? name).isSome) :
    ∃ frame rest, (frames.bind other v).inner = frame :: rest ∧ (frame.get? name).isSome := by
  obtain ⟨frame, rest, split, held⟩ := bound
  refine ⟨frame.insert other v, rest, by simp [Frames.bind, split], ?_⟩
  by_cases same : name = other
  · rw [same, Dict.get?_insert_self]
    rfl
  · rw [Dict.get?_insert_of_ne _ same]
    exact held

variable {p : EStateM Stop (World σ) α}

-- A request that is put on record. If it is for an operation, it has to be a good one.
theorem leads_request {E I : Machine (σ × List (Answered σ)) → Prop} {ask : Ask} (fine : ∀ call ∈ ask.call?, good call)
    (asked : ∀ m, I m → Asked good m) (moves : ∀ m w, I m → Asked good { m with world := w } → I { m with world := w })
    (stops : ∀ m, I m → E m) :
    Leads E I (.ofHost (watch ask p)) I := by
  intro m held
  have grown (entry : Answered σ) (same : entry.ask = ask) (left : World σ) :
      I { m with world := left.watched (m.world.host.2 ++ [entry]) } := by
    refine moves m _ held fun call member => ?_
    obtain ⟨e, member, isCall⟩ := List.mem_filterMap.mp member
    rcases List.mem_append.mp member with old | new
    · exact asked m held call (List.mem_filterMap.mpr ⟨e, old, isCall⟩)
    · rw [List.mem_singleton.mp new, same] at isCall
      exact fine call isCall
  unfold Exec.ofHost watch
  cases p m.world.unwatched with
  | ok a left => exact grown _ rfl left
  | error stop left => exact stops _ (grown _ rfl left)

variable {i : Option Nat}

theorem leads_ask (ask : Ask) (fine : ∀ call ∈ ask.call?, good call) :
    Leads (Upheld good none) (Upheld good i) (.ofHost (watch ask p)) (Upheld good i) :=
  leads_request fine (fun _ held => held.calls)
    (fun _ _ held calls => ⟨calls, held.ordered.functions, held.ordered.args, held.ordered.here⟩) upheld_forget

variable {h : Host σ} {unit : String} {fuel : Nat}

theorem checkpoint_leads (line : Nat) :
    Leads (Upheld good none) (Upheld good none) (checkpoint ⟨h.watched, unit⟩ line) (Upheld good (some line)) := by
  have moved : Leads (σ := σ) (Upheld good none) (Upheld good none) (modify fun s => { s with line := line })
      (Upheld good (some line)) :=
    fun _ held => ⟨held.calls, held.ordered.functions, held.ordered.args, fun _ same => Option.some.inj same⟩
  exact leads_bind moved fun _ => leads_get fun m held => leads_ask (.checkpoint line _) fun _ member => nomatch member

variable {f : Function} {k : String × Value}

theorem unexpected_refused {args : Args} (given : k ∈ args.keywords)
    (unknown : k.1 ∉ f.params) (frame : Dict Value) : bindArguments f args ≠ .ok frame := by
  have stuck (keywords : List (String × Value)) (given : k ∈ keywords) (start last : Dict Value) :
      keywords.foldlM (fun frame e =>
        if f.params.contains e.1 then Except.ok (frame.insert e.1 e.2)
        else failArguments f.name ("got an unexpected keyword argument '" ++ e.1 ++ "'")) start ≠ .ok last := by
    induction keywords generalizing start with
    | nil => exact absurd given List.not_mem_nil
    | cons e rest ih =>
      intro folded
      rw [List.foldlM_cons] at folded
      obtain ⟨next, taken, folded⟩ := bind_ok folded
      rcases List.mem_cons.mp given with rfl | later
      · rw [if_neg (by simpa using unknown)] at taken
        cases taken
      · exact ih later next folded
  intro bound
  unfold bindArguments at bound
  split at bound
  · cases bound
  · obtain ⟨last, folded, _⟩ := bind_ok bound
    exact stuck args.keywords given _ last folded

theorem keywords_named {kwargs : List (String × Expr)} (values : List (String × Value)) (m n : Machine σ) {ctx : Context σ}
    (done : evalKeywords ctx fuel kwargs m = .ok values n) : values.map Prod.fst = kwargs.map Prod.fst := by
  induction kwargs generalizing fuel values m with
  | nil =>
    cases fuel <;> simp only [evalKeywords] at done <;> cases done
    rfl
  | cons k rest ih =>
    cases fuel with
    | zero =>
      cases done
    | succ fuel =>
      obtain ⟨v, between, _, done⟩ := bind_done done
      obtain ⟨others, last, evaluated, done⟩ := bind_done done
      cases done
      rw [List.map_cons, List.map_cons, ih others between evaluated]

theorem args_named (args : List Expr) (kwargs : List (String × Expr)) (given : Args) (m n : Machine σ) (ctx : Context σ)
    (done : evalArgs ctx fuel args kwargs m = .ok given n) : given.keywords.map Prod.fst = kwargs.map Prod.fst := by
  cases fuel with
  | zero =>
    cases done
  | succ fuel =>
    obtain ⟨positional, between, _, done⟩ := bind_done done
    obtain ⟨keywords, last, evaluated, done⟩ := bind_done done
    cases done
    exact keywords_named keywords between _ evaluated

variable {ctx : Context (σ × List (Answered σ))}

theorem leads_refused (params : f.params = ["args"]) {given : Args} (member : k ∈ given.keywords) (unknown : k.1 ∉ ["args"]) :
    Leads (Upheld good none) (Upheld good i) (invoke ctx fuel f given) (Upheld good i) := by
  cases fuel with
  | zero =>
    exact leads_throw _ upheld_forget
  | succ fuel =>
    refine leads_get fun m _ => ?_
    split
    · exact leads_throw _ upheld_forget
    · cases bound : bindArguments f given with
      | ok frame => exact absurd bound (unexpected_refused member (params ▸ unknown) frame)
      | error stop => exact leads_throw stop upheld_forget

-- Plain expressions, and calls whose parts are plain. They do not enter the function of the script, and the operation that
-- they ask for is good.
structure Apt (good : AtomicCall → Prop) (ctx : Context (σ × List (Answered σ))) (line : Nat) (e : Expr) : Prop where
  parts : ∀ part ∈ e.parts, Plain anyName part
  called : match e with
    | .call (.name n) _ ks => n = "main" → ∃ k ∈ ks, k.1 ∉ ["args"]
    | .call (.attr base method) es ks => ∀ root path, (Expr.attr base method).dottedPath? = some (root :: path) →
      root ≠ "args" → ¬(root = "report" ∧ path.length = 1) → ∀ fuel given m n, evalArgs ctx fuel es ks m = .ok given n →
        good ⟨Text.joinWith "." (root :: path), given, ctx.unit, line⟩
    | _ => True

variable {e : Expr}

theorem plain_apt {line : Nat} (plain : Plain anyName e) : Apt good ctx line e := by
  cases plain with
  | lit v | name n named => exact ⟨nofun, trivial⟩
  | attr base a inner => exact ⟨List.forall_mem_cons.mpr ⟨inner, nofun⟩, trivial⟩
  | item left right first second | bin op left right first second | cmp op left right first second =>
    exact ⟨List.forall_mem_cons.mpr ⟨first, List.forall_mem_cons.mpr ⟨second, nofun⟩⟩, trivial⟩
  | call n args kwargs named other positional keywords =>
    exact ⟨List.forall_mem_append.mpr ⟨positional, List.forall_mem_map.mpr keywords⟩, fun isMain => absurd isMain other⟩
  | list items all => exact ⟨all, trivial⟩
  | dict entries keys values =>
    refine ⟨fun part member => ?_, trivial⟩
    obtain ⟨e, listed, same⟩ := List.mem_flatMap.mp member
    rcases List.mem_pair.mp same with rfl | rfl
    · exact keys e listed
    · exact values e listed

def upholding (good : AtomicCall → Prop) (ctx : Context (σ × List (Answered σ))) :
    Rule (σ × List (Answered σ)) (σ × List (Answered σ)) where
  holds i j p _ := Leads (Upheld good none) (Upheld good i) p (Upheld good j)
  known p a := ∃ m n, p m = .ok a n
  ordered := Ordered
  fits := Apt good ctx
  defines _ := False

theorem upholds_basic (ctx : Context (σ × List (Answered σ))) : Basic (upholding good ctx) where
  done _ _ held := held
  after first second := leads_then first fun a m n _ ran => second a ⟨m, n, ran⟩
  exhausted := upheld_forget
  look rest := leads_get fun m held => rest m m rfl held.ordered
  operation x _ := by
    cases x with
    | ok a => exact fun _ held => held
    | error stop => exact upheld_forget
  store _ _ held := ⟨held.calls, held.ordered.functions, held.ordered.args, held.ordered.here⟩

theorem asked_good {line : Nat} {base : Expr} {method : String} {es : List Expr}
    {ks : List (String × Expr)} {call : AtomicCall} (asks : Asks (upholding good ctx) ctx line base method es ks call) :
    good call := by
  obtain ⟨root, path, m, dotted, key, away, ordered, unbound⟩ := asks.path
  obtain ⟨fuel, before, after, evaluated⟩ := asks.given
  obtain ⟨here, known, line⟩ := asks.line
  have other : root ≠ "args" := by
    rintro rfl
    obtain ⟨frame, rest, split, bound⟩ := ordered.args
    obtain ⟨v, bound⟩ := Option.isSome_iff_exists.mp bound
    rw [Frames.lookup, Frames.current, split] at unbound
    simp [bound] at unbound
  have fine := asks.fits.called root path dotted other away fuel call.args before after evaluated
  rw [← key, ← asks.unit, ← known.here _ rfl, ← line] at fine
  exact fine

theorem leads_on {f : Except Error Flow → Exec (σ × List (Answered σ)) Flow}
    (rest : ∀ result, resultHalted result = false → Leads (Upheld good none) (Upheld good none) (f result) (Upheld good none))
    (ends : ∀ e, e.isHalted = true → f (.error e) = throw (.error e)) (result : Except Error Flow) :
    Leads (Upheld good none) (Upheld good none) (f result) (Upheld good none) :=
  goes_on (P := (Leads _ _ · _)) (fun _ => leads_throw _ upheld_forget) rest ends result

theorem upholds_whole (h : Host σ) (unit : String) :
    Whole (upholding good ⟨h.watched, unit⟩) ⟨h.watched, unit⟩ ⟨h.watched, unit⟩ where
  toBasic := upholds_basic _
  unit := rfl
  parts _ _ apt part member := plain_apt (apt.parts part member)
  place f _ _ fresh _ := (upholds_basic _).update (fun _ _ _ held => by
    refine ⟨held.calls, held.ordered.functions, ?_, held.ordered.here⟩
    dsimp only
    unfold Frames.rebind
    split
    · exact inner_bound _ _ _ held.ordered.args
    · exact held.ordered.args) _ _ f fresh
  bind _ _ _ _ held := ⟨held.calls, held.ordered.functions, inner_bound _ _ _ held.ordered.args, held.ordered.here⟩
  callAtomic call asks := leads_map_error (leads_ask (.call call) fun _ same => Option.some.inj same ▸ asked_good asks)
  report level record := leads_ask (.report level record) fun _ member => nomatch member
  sleep seconds := leads_ask (.sleep seconds) fun _ member => nomatch member
  print text := leads_ask (.print text) fun _ member => nomatch member
  forget leads := leads_weaken leads (fun _ held => held) upheld_forget
  enter leads m held := leads m (upheld_forget m held)
  checkpoint := checkpoint_leads
  locate _ _ _ leads := leads_map_error leads
  define _ never := never.elim
  raise _ := upheld_forget
  tried inner rest ends := leads_bind (leads_observe inner) (leads_on rest fun e dead => (ends e dead).1)
  handled e p _ f _ inner rest ends := by
    have changes (f : List Error → List Error) :
        Leads (σ := σ) (Upheld good none) (Upheld good none) (modify fun s => { s with handling := f s.handling }) (Upheld good none) :=
      fun _ held => ⟨held.calls, held.ordered.functions, held.ordered.args, held.ordered.here⟩
    refine leads_bind (changes (e :: ·)) fun _ => leads_bind (leads_observe inner) fun result => ?_
    exact leads_bind (changes List.tail) fun _ => leads_on rest (fun e dead => (ends e dead).1) result

theorem upholds (h : Host σ) (unit : String) (fuel : Nat) :
    Executions (upholding good ⟨h.watched, unit⟩) ⟨h.watched, unit⟩ ⟨h.watched, unit⟩ fuel := by
  induction fuel with
  | zero => exact executions_none (upholds_basic _)
  | succ fuel ih =>
    refine executions_next (upholds_whole h unit) ih fun line m name f es ks ordered found apt given => ?_
    obtain ⟨isMain, params⟩ := ordered.functions name f found
    obtain ⟨k, member, unknown⟩ := apt.called isMain
    refine leads_then given fun values before after _ evaluated => ?_
    have names := args_named es ks values before after _ evaluated
    obtain ⟨k', member', same⟩ : ∃ k' ∈ values.keywords, k'.1 = k.1 :=
      List.mem_map.mp (names ▸ List.mem_map_of_mem member)
    exact leads_refused params member' (same ▸ unknown)

end Flowstep.Script.Interp
