/-!
Finite maps from names to values, kept in ascending order of the names.
-/
namespace Flowstep

-- A map from names to values. The entries of a map built by `insert`, `erase` and `ofList` stand
-- in strictly ascending order of their names.
structure Dict (α : Type) where
  entries : List (String × α)
deriving Repr

namespace Dict

variable {α β : Type}

def empty : Dict α := ⟨[]⟩

instance : EmptyCollection (Dict α) := ⟨empty⟩

instance : Inhabited (Dict α) := ⟨empty⟩

def insertEntry (k : String) (v : α) : List (String × α) → List (String × α)
  | [] => [(k, v)]
  | (k', v') :: rest =>
    if k < k' then (k, v) :: (k', v') :: rest
    else if k = k' then (k, v) :: rest
    else (k', v') :: insertEntry k v rest

def insert (m : Dict α) (k : String) (v : α) : Dict α := ⟨insertEntry k v m.entries⟩

def get? (m : Dict α) (k : String) : Option α := m.entries.lookup k

def getD (m : Dict α) (k : String) (d : α) : α := (m.get? k).getD d

def contains (m : Dict α) (k : String) : Bool := (m.get? k).isSome

def erase (m : Dict α) (k : String) : Dict α := ⟨m.entries.filter (·.1 != k)⟩

def ofList (l : List (String × α)) : Dict α := l.foldl (fun m e => m.insert e.1 e.2) empty

def keys (m : Dict α) : List String := m.entries.map (·.1)

def values (m : Dict α) : List α := m.entries.map (·.2)

def size (m : Dict α) : Nat := m.entries.length

def isEmpty (m : Dict α) : Bool := m.entries.isEmpty

def map (f : α → β) (m : Dict α) : Dict β := ⟨m.entries.map fun e => (e.1, f e.2)⟩

def filter (p : String → α → Bool) (m : Dict α) : Dict α := ⟨m.entries.filter fun e => p e.1 e.2⟩

def union (m n : Dict α) : Dict α := n.entries.foldl (fun r e => r.insert e.1 e.2) m

def Ascending (m : Dict α) : Prop := m.entries.Pairwise (·.1 < ·.1)

theorem lookup_insert_entry_self (k : String) (v : α) (l : List (String × α)) :
    (insertEntry k v l).lookup k = some v := by
  induction l with
  | nil => simp [insertEntry]
  | cons e rest ih =>
    obtain ⟨k', v'⟩ := e
    unfold insertEntry
    split
    · simp
    · split
      · simp
      · rename_i hne
        have hb : (k == k') = false := by simpa using hne
        rw [List.lookup_cons, hb]
        exact ih

theorem lookup_insert_entry_of_ne {k k' : String} (h : k' ≠ k) (v : α) (l : List (String × α)) :
    (insertEntry k v l).lookup k' = l.lookup k' := by
  induction l with
  | nil =>
    have hb : (k' == k) = false := by simpa using h
    simp [insertEntry, List.lookup_cons, hb]
  | cons e rest ih =>
    obtain ⟨k'', v''⟩ := e
    have hb : (k' == k) = false := by simpa using h
    unfold insertEntry
    split
    · rw [List.lookup_cons, hb]
    · split
      · rename_i heq
        subst heq
        rw [List.lookup_cons, List.lookup_cons, hb]
      · rw [List.lookup_cons, List.lookup_cons, ih]

theorem mem_insert_entry (k : String) (v : α) (l : List (String × α)) (e : String × α) (h : e ∈ insertEntry k v l) :
    e = (k, v) ∨ e ∈ l := by
  induction l with
  | nil => exact .inl (List.mem_singleton.mp h)
  | cons first rest ih =>
    unfold insertEntry at h
    split at h
    · exact List.mem_cons.mp h
    · split at h
      · rcases List.mem_cons.mp h with same | later
        · exact .inl same
        · exact .inr (List.mem_cons_of_mem _ later)
      · rcases List.mem_cons.mp h with same | later
        · exact .inr (same ▸ List.mem_cons_self)
        · rcases ih later with same | kept
          · exact .inl same
          · exact .inr (List.mem_cons_of_mem _ kept)

@[simp] theorem get?_insert_self (m : Dict α) (k : String) (v : α) :
    (m.insert k v).get? k = some v :=
  lookup_insert_entry_self k v m.entries

theorem get?_insert_of_ne (m : Dict α) {k k' : String} (h : k' ≠ k) (v : α) :
    (m.insert k v).get? k' = m.get? k' :=
  lookup_insert_entry_of_ne h v m.entries

@[simp] theorem get?_empty (k : String) : (empty : Dict α).get? k = none := rfl

end Dict

end Flowstep
