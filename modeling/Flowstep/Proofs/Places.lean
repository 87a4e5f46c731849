import Flowstep.Proofs.Inversion
import Flowstep.Proofs.Outcome
import Flowstep.Proofs.Running

/-!
Assigning to an item of a variable.
-/
namespace Flowstep.Script

structure Points (key : Value) (length i : Nat) : Prop where
  inside : i < length
  counted : ∃ n : Int64, key.asInt? = some n ∧ (n.toInt = i ∨ n.toInt = (i : Int) - length)

-- The item that a chain of subscripts selects has become `v`. Lists keep their length, and a map gains the last key at most.
inductive Assigned (v : Value) : List Value → Option Value → Value → Prop where
  | whole (old : Option Value) : Assigned v [] old v
  | entry (key : Value) {keys : List Value} (before after : Dict Value) (item : Value)
    (set : after.get? key.display = some item) (others : ∀ k ≠ key.display, after.get? k = before.get? k)
    (inner : Assigned v keys (before.get? key.display) item) : Assigned v (key :: keys) (some (.map before)) (.map after)
  | item (key : Value) {keys : List Value} (before after : List Value) (i : Nat) (item : Value)
    (points : Points key before.length i) (size : after.length = before.length) (set : after[i]? = some item)
    (others : ∀ j ≠ i, after[j]? = before[j]?) (inner : Assigned v keys before[i]? item) :
    Assigned v (key :: keys) (some (.list before)) (.list after)

theorem item_index_ok {len i : Nat} {key : Value} {typeName : String} :
    itemIndex len key typeName = .ok i ↔ Points key len i := by
  unfold itemIndex
  cases counted : key.asInt? with
  | none => exact ⟨nofun, fun ⟨_, n, same, _⟩ => by cases counted.symm.trans same⟩
  | some n =>
    have points : Points key len i ↔ i < len ∧ (n.toInt = i ∨ n.toInt = (i : Int) - len) :=
      ⟨fun ⟨inside, n', same, place⟩ => by cases counted.symm.trans same; exact ⟨inside, place⟩,
        fun ⟨inside, place⟩ => ⟨inside, n, counted, place⟩⟩
    rw [points]
    have sign : n < 0 ↔ n.toInt < 0 := Int64.lt_iff_toInt_lt
    simp only [sign, Bool.or_eq_true, decide_eq_true_eq]
    split <;> split <;> simp only [fail, reduceCtorEq, Except.ok.injEq, false_iff] <;> omega

variable {v : Value}

theorem set_item_assigned {container key changed : Value} (done : setItem container key v = .ok changed) :
    Assigned v [key] (some container) changed := by
  unfold setItem at done
  split at done
  · cases done
    exact .entry key _ _ v (Dict.get?_insert_self ..) (fun k other => Dict.get?_insert_of_ne _ other v) (.whole _)
  · rename_i items
    obtain ⟨i, place, done⟩ := bind_ok done
    cases done
    have points := item_index_ok.mp place
    exact .item key _ _ i v points (List.length_set ..) (by simp [points.inside]) (fun j other => by simp [List.getElem?_set_ne other.symm])
      (.whole _)
  · cases done

theorem update_assigned {key : Value} (keys : List Value) : ∀ {old new : Value},
    updateAt (fun container => do return (← setItem container key v, ())) keys old = .ok (new, ()) →
    Assigned v (keys ++ [key]) (some old) new := by
  induction keys with
  | nil =>
    intro old new done
    obtain ⟨changed, set, done⟩ := bind_ok done
    cases done
    exact set_item_assigned set
  | cons k keys ih =>
    intro old new done
    cases old with
    | map entries =>
      rw [updateAt] at done
      split at done
      · rename_i inner held
        obtain ⟨⟨changed, _⟩, updated, done⟩ := bind_ok done
        cases done
        refine .entry k _ _ changed (Dict.get?_insert_self ..) (fun k' other => Dict.get?_insert_of_ne _ other _) ?_
        exact held ▸ ih updated
      · cases done
    | list items =>
      obtain ⟨i, place, done⟩ := bind_ok done
      obtain ⟨⟨changed, _⟩, updated, done⟩ := bind_ok done
      cases done
      have points := item_index_ok.mp place
      have held : items[i]? = some (itemAt items i) := by simp [itemAt, points.inside]
      refine .item k _ _ i changed points (List.length_set ..) (by simp [points.inside]) (fun j other => ?_) (held ▸ ih updated)
      exact List.getElem?_set_ne other.symm
    | _ => cases done

theorem assigned_read {keys : List Value} {old : Option Value} {new : Value} (assigned : Assigned v keys old new) :
    keys.foldlM getItem new = .ok v := by
  induction assigned with
  | whole old => rfl
  | entry key before after item set others inner ih =>
    have first : getItem (.map after) key = .ok item := by rw [getItem, set]
    rw [List.foldlM_cons, first]
    exact ih
  | item key before after i item points size set others inner ih =>
    have first : getItem (.list after) key = .ok item := by
      rw [getItem, size, item_index_ok.mpr points]
      exact congrArg Except.ok (by rw [itemAt, set]; rfl)
    rw [List.foldlM_cons, first]
    exact ih

namespace Frames

variable (f : Frames) (name : String)

def all : List (Dict Value) := f.inner ++ [f.base]

def valueAt? (i : Nat) : Option Value := f.all[i]?.bind (·.get? name)

def home : Nat := if f.current.contains name then 0 else f.depth

theorem lookup_home : f.valueAt? name (f.home name) = f.lookup name := by
  obtain ⟨base, _ | ⟨frame, rest⟩⟩ := f <;> unfold valueAt? home lookup all Dict.contains
  · cases held : base.get? name <;> simp [current, depth, held]
  · cases held : frame.get? name <;> simp [current, depth, held]

theorem rebind_all (v : Value) : ∃ frame, f.all[f.home name]? = some frame ∧
    (f.rebind name v).all = f.all.set (f.home name) (frame.insert name v) := by
  obtain ⟨base, _ | ⟨frame, rest⟩⟩ := f <;> unfold rebind home all bind current depth
  · exact ⟨base, by split <;> rfl, by split <;> rfl⟩
  · by_cases held : frame.contains name <;> simp [held]

theorem rebind_home (v : Value) : (f.rebind name v).home name = f.home name := by
  have now (frame : Dict Value) : (frame.insert name v).contains name = true := by
    rw [Dict.contains, Dict.get?_insert_self]
    rfl
  obtain ⟨base, _ | ⟨frame, rest⟩⟩ := f <;> unfold rebind home bind current depth
  · split <;> simp [now]
  · by_cases held : frame.contains name <;> simp [held, now]

theorem rebind_variable (v : Value) : (f.rebind name v).valueAt? name (f.home name) = some v ∧
    ∀ other i, (other, i) ≠ (name, f.home name) → (f.rebind name v).valueAt? other i = f.valueAt? other i := by
  obtain ⟨frame, held, changed⟩ := f.rebind_all name v
  have inside := (List.getElem?_eq_some_iff.mp held).1
  simp only [valueAt?, changed, List.getElem?_set, if_pos inside]
  refine ⟨by simp, fun other i apart => ?_⟩
  split
  · subst i
    rw [held]
    exact Dict.get?_insert_of_ne _ (fun same => apart (congrArg (·, _) same)) v
  · rfl

theorem rebind_lookup (v : Value) : (f.rebind name v).lookup name = some v := by
  rw [← lookup_home, rebind_home, (f.rebind_variable name v).1]

end Frames

namespace Interp

variable {σ : Type} {ctx : Context σ}

def subscripted (root : String) (keys : List Value) : Expr := keys.foldl (fun e key => .index e (.lit key)) (.name root)

theorem subscripted_snoc (root : String) (keys : List Value) (key : Value) :
    subscripted root (keys ++ [key]) = .index (subscripted root keys) (.lit key) := List.foldl_append ..

theorem settles_globals {m : Machine σ} (free : m.frames.lookup "gv" = none) :
    Settles (eval ctx · (.name "gv")) m (.ok (.map m.world.globals) m) := by
  refine settles_succ (fun fuel => by rw [eval]) (settles_bind (settles_fixed (Exec.lookup "gv") m) ?_)
  rw [free]
  exact settles_bind (settles_fixed Exec.globals m) (settles_fixed (pure (Value.map m.world.globals)) m)

theorem settles_item {m : Machine σ} {base : Expr} {container key w : Value}
    (settles : Settles (eval ctx · base) m (.ok container m)) (got : getItem container key = .ok w) :
    Settles (eval ctx · (.index base (.lit key))) m (.ok w m) := by
  have plain : Settles (fun fuel => do
      let container ← eval ctx fuel base
      let key ← eval ctx fuel (.lit key)
      Exec.ofExcept (getItem container key)) m (.ok w m) :=
    settles_bind settles (settles_bind (settles_lit ctx key m) (settles_run (by rw [got]; rfl)))
  by_cases named : ∃ n, base = .name n
  · obtain ⟨n, rfl⟩ := named
    refine settles_succ (fun fuel => by rw [eval]) (settles_bind (settles_fixed (isGlobals n) m) ?_)
    by_cases table : n = "gv" ∧ m.frames.lookup n = none
    · obtain ⟨rfl, free⟩ := table
      obtain ⟨enough, ends⟩ := settles
      obtain ⟨more, endsToo⟩ := @settles_globals σ ctx m free
      cases (ends (max enough more) (by omega)).symm.trans (endsToo _ (by omega))
      rw [free]
      refine settles_bind (settles_lit ctx key m) (settles_bind (settles_fixed Exec.globals m) ?_)
      rw [getItem] at got
      cases found : m.world.globals.get? key.display with
      | none =>
        rw [found] at got
        cases got
      | some v =>
        rw [found] at got
        cases got
        exact settles_fixed (pure w) m
    · have other : (decide (n = "gv") && (m.frames.lookup n).isNone) = false := by
        simpa [Option.isSome_iff_ne_none] using table
      rw [other]
      exact plain
  · refine settles_succ (fun fuel => ?_) plain
    rw [eval]
    · rfl
    · exact fun n same => named ⟨n, same⟩

theorem settles_items {m : Machine σ} (keys : List Value) : ∀ {base : Expr} {container w : Value},
    Settles (eval ctx · base) m (.ok container m) → keys.foldlM getItem container = .ok w →
    Settles (eval ctx · (keys.foldl (fun e key => .index e (.lit key)) base)) m (.ok w m) := by
  induction keys with
  | nil =>
    intro base container w settles read
    cases read
    exact settles
  | cons key keys ih =>
    intro base container w settles read
    obtain ⟨item, got, read⟩ := bind_ok read
    exact ih (settles_item settles got) read

inductive Updated (v : Value) (root : String) (keys : List Value) (m : Machine σ) : Machine σ → Prop where
  | bound (frames : Frames) (old new : Value) (held : m.frames.lookup root = some old) (item : Assigned v keys (some old) new)
    (depth : frames.depth = m.frames.depth) (set : frames.valueAt? root (m.frames.home root) = some new)
    (others : ∀ name i, (name, i) ≠ (root, m.frames.home root) → frames.valueAt? name i = m.frames.valueAt? name i) :
    Updated v root keys m { m with frames }
  | table (globals : Dict Value) (named : root = "gv") (free : m.frames.lookup root = none)
    (item : Assigned v keys (some (.map m.world.globals)) (.map globals)) :
    Updated v root keys m { m with world := { m.world with globals } }

def Lawful (ctx : Context σ) (v : Value) (root : String) (keys : List Value) (m : Machine σ) {α : Type} :
    EStateM.Result Stop (Machine σ) α → Prop
  | .ok _ n => Settles (eval ctx · (subscripted root keys)) n (.ok v n) ∧ Updated v root keys m n
  | .error _ n => n = m

variable {m : Machine σ} {root : String} {keys : List Value} {key v : Value}

theorem rebound_lawful {old new : Value} (held : m.frames.lookup root = some old) (item : Assigned v keys (some old) new) :
    Lawful ctx v root keys m (.ok () { m with frames := m.frames.rebind root new }) := by
  obtain ⟨set, others⟩ := m.frames.rebind_variable root new
  refine ⟨settles_items keys (settles_name ctx (m.frames.rebind_lookup root new)) (assigned_read item), ?_⟩
  exact .bound _ old new held item (m.frames.rebind_depth root new) set others

theorem table_lawful {globals : Dict Value} (free : m.frames.lookup "gv" = none)
    (item : Assigned v keys (some (.map m.world.globals)) (.map globals)) :
    Lawful ctx v "gv" keys m (.ok () { m with world := { m.world with globals } }) :=
  ⟨settles_items keys (settles_globals free) (assigned_read item), .table globals rfl free item⟩

theorem update_place_lawful : Lawful ctx v root (keys ++ [key]) m
    (updatePlace root keys (fun container => do return (← setItem container key v, ())) m) := by
  have asked : isGlobals root m = .ok (decide (root = "gv") && (m.frames.lookup root).isNone) m := rfl
  unfold updatePlace
  rw [bind_runs asked]
  by_cases table : root = "gv" ∧ m.frames.lookup root = none
  · obtain ⟨rfl, free⟩ := table
    rw [free]
    cases keys with
    | nil => rfl
    | cons first rest =>
      have read : (Exec.globals : Exec σ _) m = .ok m.world.globals m := rfl
      simp only [decide_true, Option.isNone_none, Bool.and_self, if_true]
      rw [bind_runs read]
      cases held : m.world.globals.get? first.display with
      | none => rfl
      | some inner =>
        dsimp only
        cases updated : updateAt (fun container => do return (← setItem container key v, ())) rest inner with
        | error stop => rfl
        | ok result =>
          refine table_lawful free (update_assigned (first :: rest) ?_)
          rw [updateAt, held]
          dsimp only
          rw [updated]
          rfl
  · have other : (decide (root = "gv") && (m.frames.lookup root).isNone) = false := by
      simpa [Option.isSome_iff_ne_none] using table
    have looked : (Exec.lookup root : Exec σ _) m = .ok (m.frames.lookup root) m := rfl
    rw [other, if_neg (by decide), bind_runs looked]
    cases held : m.frames.lookup root with
    | none => rfl
    | some old =>
      dsimp only
      cases updated : updateAt (fun container => do return (← setItem container key v, ())) keys old with
      | error stop => rfl
      | ok result => exact rebound_lawful held (update_assigned keys updated)

-- The computation gives a value and changes nothing, unless it runs out of fuel.
def Gives {α : Type} (p : Exec σ α) (m : Machine σ) (a : α) : Prop := p m = .error .exhausted m ∨ p m = .ok a m

theorem bind_gives {α β : Type} {p : Exec σ α} {f : α → Exec σ β} {a : α} (first : Gives p m a) :
    (p >>= f) m = .error .exhausted m ∨ (p >>= f) m = f a m := by
  rcases first with dry | given
  · exact .inl (by change EStateM.bind p f m = _; rw [EStateM.bind, dry])
  · exact .inr (bind_runs given)

theorem literal_gives (fuel : Nat) (v : Value) : Gives (eval ctx fuel (.lit v)) m v := by
  cases fuel with
  | zero => exact .inl (by rw [eval]; rfl)
  | succ fuel => exact .inr (by rw [eval]; rfl)

theorem place_path_gives (keys : List Value) : ∀ {base : Expr} {earlier : List Value},
    (∀ fuel, Gives (placePath ctx fuel base) m (some (root, earlier))) → ∀ fuel,
    Gives (placePath ctx fuel (keys.foldl (fun e key => .index e (.lit key)) base)) m (some (root, earlier ++ keys)) := by
  induction keys with
  | nil =>
    intro base earlier start fuel
    rw [List.append_nil]
    exact start fuel
  | cons key keys ih =>
    intro base earlier start fuel
    rw [← List.singleton_append, ← List.append_assoc]
    refine ih (fun fuel => ?_) fuel
    cases fuel with
    | zero => exact .inl (by rw [placePath]; rfl)
    | succ fuel =>
      rw [Gives, placePath]
      rcases bind_gives (start fuel) with dry | given
      · exact .inl dry
      · rw [given]
        rcases bind_gives (literal_gives fuel key) with dry | given
        · exact .inl dry
        · exact .inr given

theorem subscripted_gives (keys : List Value) (fuel : Nat) :
    Gives (placePath ctx fuel (subscripted root keys)) m (some (root, keys)) := by
  refine @place_path_gives σ ctx m root keys (.name root) [] (fun fuel => ?_) fuel
  cases fuel with
  | zero => exact .inl (by rw [placePath]; rfl)
  | succ fuel => exact .inr (by simp only [placePath]; rfl)

theorem lawful_after {α β : Type} {p : Exec σ α} {f : α → Exec σ β} {a : α} (first : Gives p m a)
    (rest : Lawful ctx v root keys m (f a m)) : Lawful ctx v root keys m ((p >>= f) m) := by
  rcases bind_gives first with dry | given
  · rw [dry]
    rfl
  · rwa [given]

theorem assign_lawful (fuel : Nat) :
    Lawful ctx v root (keys ++ [key]) m (assign ctx fuel (.index (subscripted root keys) (.lit key)) v m) := by
  cases fuel with
  | zero =>
    rfl
  | succ fuel =>
    refine lawful_after (literal_gives fuel key) ?_
    obtain rfl | ⟨front, last, rfl⟩ := List.eq_nil_or_concat keys
    · have asked : isGlobals root m = .ok (decide (root = "gv") && (m.frames.lookup root).isNone) m := rfl
      refine lawful_after (.inr asked) ?_
      by_cases table : root = "gv" ∧ m.frames.lookup root = none
      · obtain ⟨rfl, free⟩ := table
        rw [free]
        exact table_lawful free (.entry key _ _ v (Dict.get?_insert_self ..) (fun _ other => Dict.get?_insert_of_ne _ other v) (.whole _))
      · have other : (decide (root = "gv") && (m.frames.lookup root).isNone) = false := by
          simpa [Option.isSome_iff_ne_none] using table
        rw [other]
        refine lawful_after (subscripted_gives [] fuel) ?_
        exact update_place_lawful
    · have place := @subscripted_gives σ ctx m root (front ++ [last]) fuel
      rw [List.concat_eq_append]
      rw [subscripted_snoc] at place ⊢
      refine lawful_after (.inr rfl) (lawful_after place ?_)
      exact update_place_lawful

theorem subscript_assignment_is_lawful (fuel line : Nat) : Lawful ctx v root (keys ++ [key]) m
    (execKind ctx fuel line (.assign [.index (subscripted root keys) (.lit key)] (.lit v)) m) := by
  cases fuel with
  | zero =>
    rw [execKind]
    rfl
  | succ fuel =>
    rw [execKind]
    refine lawful_after (literal_gives fuel v) ?_
    cases fuel with
    | zero =>
      rw [assignAll]
      rfl
    | succ fuel =>
      have assigned := @assign_lawful σ ctx m root keys key v fuel
      simp only [assignAll]
      change Lawful ctx v root (keys ++ [key]) m (EStateM.bind _ _ m)
      unfold EStateM.bind
      cases ran : assign ctx fuel (.index (subscripted root keys) (.lit key)) v m <;> rw [ran] at assigned <;> exact assigned

end Interp

end Flowstep.Script
