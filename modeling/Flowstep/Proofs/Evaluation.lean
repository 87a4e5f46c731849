import Flowstep.Proofs.Fresh
import Flowstep.Proofs.Outcome

/-!
What holds of every evaluation: each relation that the services, the operations on values and the changes of variables have
and that sequences keep.
-/
namespace Flowstep.Script

def Value.isMap : Value → Bool
  | .map _ => true
  | _ => false

theorem Method.call_map {receiver : Value} {method : String} {args : Args} {after result : Value}
    (called : Method.call receiver method args = .ok (after, result)) (map : receiver.isMap = true) :
    after.isMap = true := by
  cases receiver with
  | map entries =>
    change Method.callMap entries method args = _ at called
    unfold Method.callMap at called
    split at called
    · obtain ⟨key, _, called⟩ := bind_ok called
      cases called
      rfl
    · cases called
      rfl
    · cases called
      rfl
    · cases called
      rfl
    · cases called
      rfl
    · cases called
      rfl
    · obtain ⟨key, _, called⟩ := bind_ok called
      split at called <;> cases called <;> rfl
    · obtain ⟨key, _, called⟩ := bind_ok called
      split at called <;> cases called <;> rfl
    · cases called
  | _ => cases map

def Expr.parts : Expr → List Expr
  | .lit _ | .name _ => []
  | .attr base _ | .not base | .neg base => [base]
  | .index left right | .bin _ left right | .cmp _ left right | .and left right | .or left right => [left, right]
  | .call (.name _) args kwargs => args ++ kwargs.map Prod.snd
  | .call (.attr base _) args kwargs => base :: (args ++ kwargs.map Prod.snd)
  | .call callee _ _ => [callee]
  | .list items => items
  | .dict entries => entries.flatMap fun e => [e.1, e.2]

def Target.parts : Target → List Expr
  | .name _ => []
  | .index object key => [object, key]

def Target.expr : Target → Expr
  | .name n => .name n
  | .index object key => .index object key

def Target.bound : Target → List String
  | .name n => [n]
  | .index _ _ => []

def Target.changed : Target → List Expr
  | .name _ => []
  | .index object _ => [object]

variable {σ τ α β : Type}

def Machine.seen (m : Machine σ) : Machine Unit := { m with world := ⟨m.world.globals, ()⟩ }

-- A relation between the computations of two scripts, by the lines that the scripts are known to be on before and after. It is
-- about the expressions that fit on a line, and about machines that are seen to be in order; only free names are bound, and
-- only some places are changed.
structure Rule (σ τ : Type) where
  holds : {α : Type} → Option Nat → Option Nat → Exec σ α → Exec τ α → Prop
  known : {α : Type} → Exec σ α → α → Prop := fun _ _ => True
  ordered : Option Nat → Machine Unit → Prop := fun _ _ => True
  fits : Nat → Expr → Prop := fun _ _ => True
  free : String → Prop := fun _ => True
  changes : Expr → Prop := fun _ => True
  defines : Function → Prop := fun _ => True

abbrev Rule.at (r : Rule σ τ) (line : Nat) (p : Exec σ α) (q : Exec τ α) : Prop := r.holds (some line) (some line) p q

namespace Interp

structure Basic (r : Rule σ τ) : Prop where
  done : ∀ {α : Type} {i : Option Nat} (a : α), r.holds i i (pure a) (pure a)
  after : ∀ {α β : Type} {i j k : Option Nat} {p : Exec σ α} {q : Exec τ α} {f : α → Exec σ β} {g : α → Exec τ β},
    r.holds i j p q → (∀ a, r.known p a → r.holds j k (f a) (g a)) → r.holds i k (p >>= f) (q >>= g)
  exhausted : ∀ {α : Type} {i j : Option Nat}, r.holds i j (throw .exhausted : Exec σ α) (throw .exhausted)
  look : ∀ {α : Type} {i j : Option Nat} {f : Machine σ → Exec σ α} {g : Machine τ → Exec τ α},
    (∀ m n, m.seen = n.seen → r.ordered i m.seen → r.holds i j (f m) (g n)) → r.holds i j (get >>= f) (get >>= g)
  operation : ∀ {α : Type} {i : Option Nat} (x : Except Stop α), Fresh x →
    r.holds i i (Exec.ofExcept x : Exec σ α) (Exec.ofExcept x)
  store : ∀ {i : Option Nat} table, r.holds i i (Exec.setGlobals table) (Exec.setGlobals table)

structure Asks (r : Rule σ τ) (c : Context σ) (line : Nat) (base : Expr) (method : String) (es : List Expr)
    (ks : List (String × Expr)) (call : AtomicCall) : Prop where
  fits : r.fits line (.call (.attr base method) es ks)
  path : ∃ root path m, (Expr.attr base method).dottedPath? = some (root :: path) ∧ call.key = Text.joinWith "." (root :: path) ∧
    ¬(root = "report" ∧ path.length = 1) ∧ r.ordered (some line) m ∧ m.frames.lookup root = none
  given : ∃ fuel, r.known (evalArgs c fuel es ks) call.args
  unit : call.unit = c.unit
  line : ∃ m, r.ordered (some line) m ∧ call.line = m.line

structure Closed (r : Rule σ τ) (c : Context σ) (d : Context τ) : Prop extends Basic r where
  unit : c.unit = d.unit
  parts : ∀ line e, r.fits line e → ∀ part ∈ e.parts, r.fits line part
  method : ∀ {line base method es ks}, r.fits line (.call (.attr base method) es ks) → r.changes base := by intros; trivial
  place : ∀ {α : Type} {line fuel : Nat} {base : Expr} {root : String} {keys : List Value} (f : Value → Except Stop (Value × α)),
    r.changes base → r.known (placePath c fuel base) (some (root, keys)) → (∀ v, Fresh (f v)) → (∀ v w a, f v = .ok (w, a) → v.isMap = true → w.isMap = true) →
    r.at line (updatePlace root keys f) (updatePlace root keys f)
  bind : ∀ {i : Option Nat} name v, r.free name → r.holds i i (Exec.bind name v) (Exec.bind name v)
  callAtomic : ∀ {line base method es ks} call, Asks r c line base method es ks call → r.at line
    (Exec.mapError Error.unwind (.ofHost (c.host.callAtomic call))) (Exec.mapError Error.unwind (.ofHost (d.host.callAtomic call)))
  report : ∀ {line} level record, r.at line (.ofHost (c.host.report level record)) (.ofHost (d.host.report level record))
  sleep : ∀ {line} seconds, r.at line (.ofHost (c.host.sleep seconds)) (.ofHost (d.host.sleep seconds))
  print : ∀ {line} text, r.at line (.ofHost (c.host.print text)) (.ofHost (d.host.print text))

structure Admits (r : Rule σ τ) (line : Nat) (target : Target) : Prop where
  parts : ∀ e ∈ target.parts, r.fits line e
  bound : ∀ n ∈ target.bound, r.free n
  changed : ∀ e ∈ target.changed, r.changes e

structure Evaluations (r : Rule σ τ) (c : Context σ) (d : Context τ) (line fuel : Nat) : Prop where
  path : ∀ e, r.fits line e → r.at line (placePath c fuel e) (placePath d fuel e)
  eval : ∀ e, r.fits line e → r.at line (eval c fuel e) (eval d fuel e)
  items : ∀ es, (∀ e ∈ es, r.fits line e) → r.at line (evalItems c fuel es) (evalItems d fuel es)
  keywords : ∀ ks, (∀ e ∈ ks.map Prod.snd, r.fits line e) →
    r.at line (evalKeywords c fuel ks) (evalKeywords d fuel ks)
  entries : ∀ es table, (∀ e ∈ es.flatMap fun e => [e.1, e.2], r.fits line e) →
    r.at line (evalEntries c fuel es table) (evalEntries d fuel es table)
  args : ∀ es ks, (∀ e ∈ es ++ ks.map Prod.snd, r.fits line e) →
    r.at line (evalArgs c fuel es ks) (evalArgs d fuel es ks)
  call : ∀ callee es ks, r.fits line (.call callee es ks) → r.at line (call c fuel callee es ks) (call d fuel callee es ks)
  callName : ∀ n es ks, r.fits line (.call (.name n) es ks) →
    r.at line (callName c fuel n es ks) (callName d fuel n es ks)
  assign : ∀ target v, Admits r line target → r.at line (assign c fuel target v) (assign d fuel target v)
  assignEach : ∀ targets values, (∀ t ∈ targets, Admits r line t) →
    r.at line (assignEach c fuel targets values) (assignEach d fuel targets values)
  assignAll : ∀ targets v, (∀ t ∈ targets, Admits r line t) →
    r.at line (assignAll c fuel targets v) (assignAll d fuel targets v)

def callOutside (ctx : Context σ) (fuel : Nat) (path : List String) (method : String) (args : List Expr)
    (kwargs : List (String × Expr)) : Exec σ Value :=
  if path.head? = some "report" && path.length = 2 then
    match Report.Level.ofMethod? method with
    | none => Exec.fail (.attribute "report" method)
    | some level => do
      let given ← evalArgs ctx fuel args kwargs
      .ofHost (ctx.host.report level (given.positional.head?.getD .none))
      return .none
  else do
    let given ← evalArgs ctx fuel args kwargs
    let line := (← get).line
    Exec.mapError Error.unwind (.ofHost (ctx.host.callAtomic ⟨Text.joinWith "." path, given, ctx.unit, line⟩))

def callMethod (ctx : Context σ) (fuel : Nat) (base : Expr) (method : String) (args : List Expr)
    (kwargs : List (String × Expr)) : Exec σ Value := do
  let given ← evalArgs ctx fuel args kwargs
  if ← isPlace base then
    match ← placePath ctx fuel base with
    | none => Exec.fail (.runtime "cannot assign into a temporary value")
    | some (root, keys) => updatePlace root keys fun receiver => Method.call receiver method given
  else
    let receiver ← eval ctx fuel base
    let (_, v) ← Exec.ofExcept (Method.call receiver method given)
    return v

variable {r : Rule σ τ} {c : Context σ} {d : Context τ} {line fuel : Nat} {i j k : Option Nat}

namespace Basic

variable (basic : Basic r)
include basic

theorem next {p : Exec σ α} {q : Exec τ α} {f : α → Exec σ β} {g : α → Exec τ β} (first : r.holds i j p q)
    (second : ∀ a, r.holds j k (f a) (g a)) : r.holds i k (p >>= f) (q >>= g) :=
  basic.after first fun a _ => second a

theorem fail (kind : ErrorKind) : r.holds i i (Exec.fail kind : Exec σ α) (Exec.fail kind) :=
  basic.operation (Script.fail kind) (fresh_fail kind)

theorem lookup (name : String) : r.holds i i (Exec.lookup name) (Exec.lookup name) := by
  refine basic.look fun m n same _ => ?_
  have frames : m.frames = n.frames := congrArg Machine.frames same
  rw [frames]
  exact basic.done _

theorem table : r.holds i i Exec.globals Exec.globals := by
  refine basic.look fun m n same _ => ?_
  have globals : m.world.globals = n.world.globals := congrArg (fun s => s.world.globals) same
  rw [globals]
  exact basic.done _

theorem is_globals (name : String) : r.holds i i (isGlobals name) (isGlobals name) :=
  basic.next (basic.lookup name) fun _ => basic.done _

theorem on_bound (name : String) {f : Bool → Exec σ α} {g : Bool → Exec τ α}
    (rest : ∀ m, r.ordered i m → ∀ bound, bound = ((m.frames.lookup name).isSome || m.functions.contains name) →
      r.holds i j (f bound) (g bound)) : r.holds i j (isBound name >>= f) (isBound name >>= g) := by
  refine basic.look fun m n same ordered => ?_
  have frames : m.frames = n.frames := congrArg Machine.frames same
  have functions : m.functions = n.functions := congrArg Machine.functions same
  rw [← frames, ← functions]
  exact rest m.seen ordered _ rfl

theorem is_place (e : Expr) : r.holds i i (isPlace e) (isPlace e) := by
  induction e using isPlace.induct with
  | case1 n =>
    exact basic.next (basic.lookup n) fun _ => basic.done _
  | case2 n index =>
    exact basic.next (basic.lookup n) fun _ => basic.done _
  | case3 base index other ih =>
    rw [isPlace, isPlace]
    · exact ih
    · exact other
    · exact other
  | case4 e named indexed other =>
    rw [isPlace, isPlace]
    · exact basic.done _
    all_goals assumption

theorem on_globals (object : Expr) {f : Bool → Exec σ α} {g : Bool → Exec τ α}
    (rest : ∀ onGlobals, r.holds i j (f onGlobals) (g onGlobals)) :
    r.holds i j
      (do
        let onGlobals ← match object with
          | .name n => isGlobals n
          | _ => pure false
        f onGlobals)
      (do
        let onGlobals ← match object with
          | .name n => isGlobals n
          | _ => pure false
        g onGlobals) := by
  cases object
  case name n => exact basic.next (basic.is_globals n) rest
  all_goals exact rest false

theorem update (rebind : ∀ root v, r.holds i i (modify fun s : Machine σ => { s with frames := s.frames.rebind root v })
      (modify fun s : Machine τ => { s with frames := s.frames.rebind root v }))
    (root : String) (keys : List Value) (f : Value → Except Stop (Value × α)) (fresh : ∀ v, Fresh (f v)) :
    r.holds i i (updatePlace root keys f) (updatePlace root keys f) := by
  refine basic.next (basic.is_globals root) fun global => ?_
  cases global with
  | true =>
    cases keys with
    | nil => exact basic.fail _
    | cons first keys =>
      refine basic.next basic.table fun globals => ?_
      cases globals.get? first.display with
      | none => exact basic.fail _
      | some v =>
        refine basic.next (basic.operation _ (update_fresh fresh keys v)) fun result => ?_
        exact basic.next (basic.store _) fun _ => basic.done _
  | false =>
    refine basic.next (basic.lookup root) fun found => ?_
    cases found with
    | none => exact basic.fail _
    | some v =>
      refine basic.next (basic.operation _ (update_fresh fresh keys v)) fun result => ?_
      exact basic.next (rebind root _) fun _ => basic.done _

theorem evaluations_none : Evaluations r c d line 0 where
  path _ _ := by rw [placePath]; exact basic.exhausted
  eval _ _ := by rw [eval]; exact basic.exhausted
  items _ _ := by rw [evalItems]; exact basic.exhausted
  keywords _ _ := by rw [evalKeywords]; exact basic.exhausted
  entries _ _ _ := by rw [evalEntries]; exact basic.exhausted
  args _ _ _ := by rw [evalArgs]; exact basic.exhausted
  call _ _ _ _ := by rw [call]; exact basic.exhausted
  callName _ _ _ _ := by rw [callName]; exact basic.exhausted
  assign _ _ _ := by rw [assign]; exact basic.exhausted
  assignEach _ _ _ := by rw [assignEach]; exact basic.exhausted
  assignAll _ _ _ := by rw [assignAll]; exact basic.exhausted

end Basic

theorem Closed.both (closed : Closed r c d) {e left right : Expr} (fits : r.fits line e) (two : e.parts = [left, right]) :
    r.fits line left ∧ r.fits line right := by
  have each := two ▸ closed.parts line e fits
  exact ⟨each left List.mem_cons_self, each right (List.mem_cons_of_mem _ List.mem_cons_self)⟩

section

variable (closed : Closed r c d) (evaluations : Evaluations r c d line fuel)
include closed evaluations

theorem path_next (e : Expr) (fits : r.fits line e) : r.at line (placePath c (fuel + 1) e) (placePath d (fuel + 1) e) := by
  cases e
  case index base index =>
    obtain ⟨first, second⟩ := closed.both fits rfl
    refine closed.next (evaluations.path base first) fun place => ?_
    cases place with
    | none => exact closed.done _
    | some place => exact closed.next (evaluations.eval index second) fun key => closed.done _
  all_goals
    exact closed.done _

theorem eval_next (e : Expr) (fits : r.fits line e) : r.at line (eval c (fuel + 1) e) (eval d (fuel + 1) e) := by
  have inner (part : Expr) (only : e.parts = [part]) : r.at line (eval c fuel part) (eval d fuel part) :=
    evaluations.eval part (closed.parts line e fits part (only ▸ List.mem_cons_self))
  have two (left right : Expr) (both : e.parts = [left, right]) :
      r.at line (eval c fuel left) (eval d fuel left) ∧
        r.at line (eval c fuel right) (eval d fuel right) :=
    (closed.both fits both).imp (evaluations.eval left) (evaluations.eval right)
  cases e with
  | lit v =>
    exact closed.done _
  | name n =>
    refine closed.next (closed.lookup n) fun found => ?_
    cases found with
    | some v => exact closed.done _
    | none =>
      dsimp only
      split
      · exact closed.next closed.table fun table => closed.done _
      · exact closed.fail _
  | attr base attr =>
    exact closed.next (inner base rfl) fun v => closed.fail _
  | index base index =>
    obtain ⟨first, second⟩ := two base index rfl
    refine closed.on_globals base fun onGlobals => ?_
    cases onGlobals with
    | true =>
      refine closed.next second fun key => closed.next closed.table fun table => ?_
      split
      · exact closed.done _
      · exact closed.fail _
    | false =>
      exact closed.next first fun container => closed.next second fun key =>
        closed.operation _ (get_item_fresh container key)
  | call callee args kwargs =>
    exact evaluations.call callee args kwargs fits
  | list items =>
    exact closed.next (evaluations.items items (closed.parts _ _ fits)) fun values => closed.done _
  | dict entries =>
    exact closed.next (evaluations.entries entries ∅ (closed.parts _ _ fits)) fun table => closed.done _
  | not base =>
    exact closed.next (inner base rfl) fun v => closed.done _
  | neg base =>
    exact closed.next (inner base rfl) fun v => closed.operation _ (negate_fresh v)
  | bin op left right =>
    obtain ⟨first, second⟩ := two left right rfl
    exact closed.next first fun l => closed.next second fun r => closed.operation _ (binary_fresh op l r)
  | cmp op left right =>
    obtain ⟨first, second⟩ := two left right rfl
    exact closed.next first fun l => closed.next second fun r =>
      closed.next (closed.operation _ (compare_fresh op l r)) fun truth => closed.done _
  | and left right =>
    obtain ⟨first, second⟩ := two left right rfl
    refine closed.next first fun l => ?_
    cases l.truthy with
    | true => exact second
    | false => exact closed.done _
  | or left right =>
    obtain ⟨first, second⟩ := two left right rfl
    refine closed.next first fun l => ?_
    cases l.truthy with
    | true => exact closed.done _
    | false => exact second

theorem items_next (es : List Expr) (fit : ∀ e ∈ es, r.fits line e) :
    r.at line (evalItems c (fuel + 1) es) (evalItems d (fuel + 1) es) := by
  cases es with
  | nil =>
    exact closed.done _
  | cons e rest =>
    obtain ⟨first, others⟩ := List.forall_mem_cons.mp fit
    exact closed.next (evaluations.eval e first) fun v => closed.next (evaluations.items rest others) fun values => closed.done _

theorem keywords_next (ks : List (String × Expr)) (fit : ∀ e ∈ ks.map Prod.snd, r.fits line e) :
    r.at line (evalKeywords c (fuel + 1) ks) (evalKeywords d (fuel + 1) ks) := by
  cases ks with
  | nil =>
    exact closed.done _
  | cons e rest =>
    obtain ⟨first, others⟩ := List.forall_mem_cons.mp fit
    exact closed.next (evaluations.eval e.2 first) fun v =>
      closed.next (evaluations.keywords rest others) fun values => closed.done _

theorem entries_next (es : List (Expr × Expr)) (table : Dict Value) (fit : ∀ e ∈ es.flatMap fun e => [e.1, e.2], r.fits line e) :
    r.at line (evalEntries c (fuel + 1) es table) (evalEntries d (fuel + 1) es table) := by
  cases es with
  | nil =>
    exact closed.done _
  | cons e rest =>
    obtain ⟨key, values⟩ := List.forall_mem_cons.mp fit
    obtain ⟨value, others⟩ := List.forall_mem_cons.mp values
    exact closed.next (evaluations.eval e.1 key) fun _ => closed.next (evaluations.eval e.2 value) fun _ =>
      evaluations.entries rest _ others

variable {es : List Expr} {ks : List (String × Expr)}

theorem outside_next {base : Expr} {root : String} {path : List String} {method : String}
    (fits : r.fits line (.call (.attr base method) es ks)) (dotted : (Expr.attr base method).dottedPath? = some (root :: path))
    {s : Machine Unit} (ordered : r.ordered (some line) s) (unbound : s.frames.lookup root = none) :
    r.at line (callOutside c fuel (root :: path) method es ks) (callOutside d fuel (root :: path) method es ks) := by
  have given := evaluations.args es ks (List.forall_mem_cons.mp (closed.parts _ _ fits)).2
  unfold callOutside
  split
  · cases Report.Level.ofMethod? method with
    | none => exact closed.fail _
    | some level => exact closed.next given fun _ => closed.next (closed.report level _) fun _ => closed.done _
  · rename_i away
    refine closed.after given fun args known => closed.look fun m n same here => ?_
    have lines : m.line = n.line := congrArg Machine.line same
    rw [← lines, ← closed.unit]
    exact closed.callAtomic _ ⟨fits, ⟨root, path, s, dotted, rfl, by simpa using away, ordered, unbound⟩, ⟨fuel, known⟩, rfl,
      m.seen, here, rfl⟩

theorem method_next {base : Expr} (method : String) (fits : r.fits line (.call (.attr base method) es ks)) :
    r.at line (callMethod c fuel base method es ks) (callMethod d fuel base method es ks) := by
  obtain ⟨inner, fit⟩ := List.forall_mem_cons.mp (closed.parts _ _ fits)
  refine closed.next (evaluations.args es ks fit) fun given => closed.next (closed.is_place base) fun isPlace => ?_
  cases isPlace with
  | true =>
    refine closed.after (evaluations.path base inner) fun place known => ?_
    cases place with
    | none => exact closed.fail _
    | some place =>
      exact closed.place _ (closed.method fits) known (fun v => Method.call_fresh v method given) fun v w a => Method.call_map
  | false =>
    exact closed.next (evaluations.eval base inner) fun receiver =>
      closed.next (closed.operation _ (Method.call_fresh receiver method given)) fun result => closed.done _

theorem call_next (callee : Expr) (es : List Expr) (ks : List (String × Expr)) (fits : r.fits line (.call callee es ks)) :
    r.at line (call c (fuel + 1) callee es ks) (call d (fuel + 1) callee es ks) := by
  cases callee
  case name n =>
    exact evaluations.callName n es ks fits
  case attr base method =>
    rw [call, call]
    have called := method_next closed evaluations method fits
    cases dotted : (Expr.attr base method).dottedPath? with
    | none => exact called
    | some path =>
      cases path with
      | nil => exact called
      | cons root rest =>
        refine closed.on_bound root fun s ordered bound isBound => ?_
        change r.at line (if (!bound && decide (root ≠ "gv")) = true then _ else _)
          (if (!bound && decide (root ≠ "gv")) = true then _ else _)
        split
        · refine outside_next closed evaluations fits dotted ordered ?_
          simp_all
        · exact called
  all_goals
    exact closed.next (evaluations.eval _ (closed.parts _ _ fits _ List.mem_cons_self)) fun v => closed.fail _

theorem call_name_next {name : String} (fits : r.fits line (.call (.name name) es ks))
    (invokes : ∀ m f, r.ordered (some line) m → m.functions.get? name = some f →
      r.at line (evalArgs c fuel es ks >>= invoke c fuel f) (evalArgs d fuel es ks >>= invoke d fuel f)) :
    r.at line (callName c (fuel + 1) name es ks) (callName d (fuel + 1) name es ks) := by
  have given := evaluations.args es ks (closed.parts _ _ fits)
  refine closed.next (closed.lookup name) fun found => ?_
  cases found with
  | some v => exact closed.fail _
  | none =>
    refine closed.look fun m n same ordered => ?_
    have functions : m.functions = n.functions := congrArg Machine.functions same
    rw [← functions]
    cases found : m.functions.get? name with
    | some f =>
      dsimp only
      rw [← bind_assoc, ← bind_assoc]
      exact closed.next (invokes m.seen f ordered found) fun result => closed.done _
    | none =>
      dsimp only
      split
      · refine closed.next given fun args => closed.next (closed.operation _ (seconds_fresh args)) fun seconds => ?_
        exact closed.next (closed.sleep seconds) fun _ => closed.done _
      · split
        · exact closed.next given fun _ => closed.next (closed.print _) fun _ => closed.done _
        · split
          · exact closed.next given fun args => closed.operation _ (Builtin.call_fresh name args)
          · exact closed.fail _

theorem assign_next (target : Target) (v : Value) (admits : Admits r line target) :
    r.at line (assign c (fuel + 1) target v) (assign d (fuel + 1) target v) := by
  cases target with
  | name n =>
    exact closed.bind n v (admits.bound n List.mem_cons_self)
  | index object index =>
    obtain ⟨container, others⟩ := List.forall_mem_cons.mp admits.parts
    refine closed.next (evaluations.eval index (others index List.mem_cons_self)) fun key => ?_
    refine closed.on_globals object fun onGlobals => ?_
    cases onGlobals with
    | true => exact closed.next closed.table fun table => closed.store _
    | false =>
      refine closed.after (evaluations.path object container) fun place known => ?_
      cases place with
      | none => exact closed.fail _
      | some place =>
        refine closed.place _ (admits.changed object List.mem_cons_self) known (fun container => fresh_bind (set_item_fresh container key v) fun _ => fresh_ok _) ?_
        intro container after a set map
        obtain ⟨made, item, set⟩ := bind_ok set
        cases set
        cases container with
        | map entries =>
          cases item
          rfl
        | _ => cases map

theorem assign_each_next (targets : List Target) (values : List Value) (admits : ∀ t ∈ targets, Admits r line t) :
    r.at line (assignEach c (fuel + 1) targets values) (assignEach d (fuel + 1) targets values) := by
  cases targets with
  | nil =>
    exact closed.done _
  | cons target targets =>
    cases values with
    | nil =>
      exact closed.done _
    | cons v values =>
      obtain ⟨first, others⟩ := List.forall_mem_cons.mp admits
      exact closed.next (evaluations.assign target v first) fun _ => evaluations.assignEach targets values others

theorem assign_all_next (targets : List Target) (v : Value) (admits : ∀ t ∈ targets, Admits r line t) :
    r.at line (assignAll c (fuel + 1) targets v) (assignAll d (fuel + 1) targets v) := by
  rw [assignAll.eq_def, assignAll.eq_def]
  dsimp only
  split
  · exact evaluations.assign _ _ (admits _ List.mem_cons_self)
  · split
    · exact evaluations.assignEach _ _ admits
    · exact closed.fail _
  · exact closed.fail _

theorem evaluations_next (invokes : ∀ m name f es ks, r.ordered (some line) m → m.functions.get? name = some f →
      r.fits line (.call (.name name) es ks) → r.at line (evalArgs c fuel es ks) (evalArgs d fuel es ks) →
      r.at line (evalArgs c fuel es ks >>= invoke c fuel f) (evalArgs d fuel es ks >>= invoke d fuel f)) :
    Evaluations r c d line (fuel + 1) where
  path := path_next closed evaluations
  eval := eval_next closed evaluations
  items := items_next closed evaluations
  keywords := keywords_next closed evaluations
  entries := entries_next closed evaluations
  args es ks fit := by
    obtain ⟨positional, keywords⟩ := List.forall_mem_append.mp fit
    exact closed.next (evaluations.items es positional) fun _ => closed.next (evaluations.keywords ks keywords) fun _ => closed.done _
  call := call_next closed evaluations
  callName name es ks fits := by
    refine call_name_next closed evaluations fits fun m f ordered found => ?_
    exact invokes m name f es ks ordered found fits (evaluations.args es ks (closed.parts _ _ fits))
  assign := assign_next closed evaluations
  assignEach := assign_each_next closed evaluations
  assignAll := assign_all_next closed evaluations

end

end Interp

end Flowstep.Script
