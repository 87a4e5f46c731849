import Flowstep.Json.Record

/-!
Records are read as they were written: the names of a dictionary stand in order, and every reader finds
the fields of its record.
-/
namespace Flowstep.Dict

variable {α β : Type}

variable {l : List (String × α)}

theorem insert_entry_ascending (k : String) (v : α) (ascending : l.Pairwise (·.1 < ·.1)) :
    (insertEntry k v l).Pairwise (·.1 < ·.1) := by
  induction l with
  | nil => exact List.pairwise_singleton _ _
  | cons e rest ih =>
    rw [List.pairwise_cons] at ascending
    rw [insertEntry]
    by_cases less : k < e.1
    · rw [if_pos less]
      refine .cons ?_ (.cons ascending.1 ascending.2)
      intro f member
      rcases List.mem_cons.mp member with rfl | later
      · exact less
      · exact String.lt_trans less (ascending.1 f later)
    · rw [if_neg less]
      by_cases same : k = e.1
      · rw [if_pos same]
        exact .cons (fun f member => same ▸ ascending.1 f member) ascending.2
      · rw [if_neg same]
        refine .cons ?_ (ih ascending.2)
        intro f member
        rcases mem_insert_entry k v rest f member with rfl | old
        · exact Std.lt_of_le_of_ne less (Ne.symm same)
        · exact ascending.1 f old

theorem insert_ascending {m : Dict α} (ascending : m.Ascending) (k : String) (v : α) : (m.insert k v).Ascending :=
  insert_entry_ascending k v ascending

theorem empty_ascending : (∅ : Dict α).Ascending := .nil

theorem fold_ascending {ι : Type} (f : Dict α → ι → Dict α) (keeps : ∀ m i, m.Ascending → (f m i).Ascending)
    (items : List ι) (m : Dict α) (ascending : m.Ascending) : (items.foldl f m).Ascending := by
  induction items generalizing m with
  | nil => exact ascending
  | cons i rest ih => exact ih (f m i) (keeps m i ascending)

theorem of_list_ascending (l : List (String × α)) : (ofList l).Ascending :=
  fold_ascending _ (fun _ e ascending => insert_ascending ascending e.1 e.2) l _ empty_ascending

theorem insert_entry_last {k : String} (v : α) (below : ∀ e ∈ l, e.1 < k) :
    insertEntry k v l = l ++ [(k, v)] := by
  induction l with
  | nil => rfl
  | cons e rest ih =>
    have less := below e List.mem_cons_self
    rw [insertEntry, if_neg fun more => String.lt_irrefl _ (String.lt_trans less more),
      if_neg fun same => String.lt_irrefl _ (same ▸ less), ih fun f member => below f (List.mem_cons_of_mem _ member)]
    rfl

theorem of_list_ordered (ascending : l.Pairwise (·.1 < ·.1)) : ofList l = ⟨l⟩ := by
  have added (rest front : List (String × α)) (ascending : (front ++ rest).Pairwise (·.1 < ·.1)) :
      rest.foldl (fun (m : Dict α) e => m.insert e.1 e.2) ⟨front⟩ = ⟨front ++ rest⟩ := by
    induction rest generalizing front with
    | nil => simp
    | cons e rest ih =>
      have below : ∀ f ∈ front, f.1 < e.1 := fun f member =>
        (List.pairwise_append.mp ascending).2.2 f member e List.mem_cons_self
      rw [List.foldl_cons, insert, insert_entry_last e.2 below, ih (front ++ [e]) (by simpa using ascending)]
      simp
  exact added l [] ascending

theorem map_ascending (f : α → β) {m : Dict α} (ascending : m.Ascending) : (m.map f).Ascending :=
  List.pairwise_map.mpr ascending

end Flowstep.Dict

namespace Flowstep.Json

open Written (ofJson ofItems value? itemValues? fieldValues?)

mutual

theorem value_of_written : ∀ j : Json, value? (ofJson j) = some j.canonical
  | .null => rfl
  | .bool _ => rfl
  | .int _ => rfl
  | .float _ => rfl
  | .str _ => rfl
  | .arr items => by rw [ofJson, value?, values_of_items items]; rfl
  | .obj ⟨fields⟩ => by rw [ofJson, value?, values_of_fields fields]; rfl

theorem values_of_items : ∀ items : List Json, itemValues? (ofItems items) = some (canonicalItems items)
  | [] => rfl
  | j :: rest => by
    rw [ofItems, itemValues?, value_of_written j, values_of_items rest]
    rfl

theorem values_of_fields : ∀ fields : List (String × Json),
    fieldValues? (Written.ofFields fields) = some (canonicalFields fields)
  | [] => rfl
  | (k, j) :: rest => by
    rw [Written.ofFields, fieldValues?, value_of_written j, values_of_fields rest]
    rfl

end

theorem items_written (items : List Json) : ofItems items = items.map ofJson := by
  induction items with
  | nil => rfl
  | cons j rest ih => rw [ofItems, ih, List.map_cons]

variable (fields : List (String × Json))

theorem fields_written : Written.ofFields fields = fields.map fun e => (e.1, ofJson e.2) := by
  induction fields with
  | nil => rfl
  | cons e rest ih => rw [Written.ofFields, ih, List.map_cons]

theorem map_m_some {ι κ : Type} {f : ι → Option κ} {items : List ι} (g : ι → κ) (all : ∀ i ∈ items, f i = some (g i)) :
    items.mapM f = some (items.map g) := by
  induction items with
  | nil => rfl
  | cons i rest ih =>
    rw [List.mapM_cons, all i List.mem_cons_self, ih fun i member => all i (List.mem_cons_of_mem _ member)]
    rfl

theorem slot_written {fields : List (String × Json)} (distinct : (fields.map Prod.fst).Nodup) {e : String × Json}
    (member : e ∈ fields) : slotOf (Written.ofFields fields) e.1 = some (some (ofJson e.2)) := by
  have found : (Written.ofFields fields).filter (·.1 == e.1) = [(e.1, ofJson e.2)] := by
    obtain ⟨front, back, rfl⟩ := List.append_of_mem member
    rw [List.map_append, List.map_cons, List.nodup_append, List.nodup_cons] at distinct
    obtain ⟨_, ⟨later, _⟩, earlier⟩ := distinct
    have others (part : List (String × Json)) (absent : ∀ f ∈ part, f.1 ≠ e.1) :
        (part.map fun f => (f.1, ofJson f.2)).filter (·.1 == e.1) = [] := by
      rw [List.filter_eq_nil_iff]
      intro f member
      obtain ⟨g, inside, rfl⟩ := List.mem_map.mp member
      simpa using absent g inside
    rw [fields_written, List.map_append, List.map_cons, List.filter_append, List.filter_cons_of_pos (by simp),
      others front fun f member => earlier _ (List.mem_map_of_mem member) _ List.mem_cons_self,
      others back fun f member same => later (same ▸ List.mem_map_of_mem member)]
    rfl
  rw [slotOf, found]

theorem object_slots_written (distinct : (fields.map Prod.fst).Nodup) :
    objectSlots (fields.map Prod.fst) (ofJson (.obj ⟨fields⟩)) = some (fields.map fun e => some (ofJson e.2)) := by
  rw [ofJson, objectSlots, List.mapM_map]
  exact map_m_some _ fun e member => slot_written distinct member

theorem slots_written (distinct : (fields.map Prod.fst).Nodup) :
    slots (fields.map Prod.fst) (ofJson (.obj ⟨fields⟩)) = some (fields.map fun e => some (ofJson e.2)) := by
  rw [slots]
  · exact object_slots_written fields distinct
  · exact fun items other => by cases other

theorem Slot.required_read {α : Type} {r : Reader α} {w : Written} {a : α} (reads : r w = some a) :
    Slot.required (some w) r = some a := reads

namespace Reader

variable {α : Type}

theorem list_written (r : Reader α) (write : α → Json) (items : List α) (reads : ∀ a ∈ items, r (ofJson (write a)) = some a) :
    r.list (ofJson (.arr (items.map write))) = some items := by
  rw [ofJson, items_written, list, List.mapM_map, List.mapM_map]
  exact (map_m_some id reads).trans (by rw [List.map_id])

theorem dict_read {β : Type} (r : Reader β) (write : α → Json) (seen : α → β) {d : Dict α} (ascending : d.Ascending)
    (reads : ∀ a ∈ d.values, r (ofJson (write a)) = some (seen a)) :
    r.dict (ofJson (.obj (d.map write))) = some (d.map seen) := by
  rw [Dict.map, ofJson, fields_written, dict, List.mapM_map, List.mapM_map,
    map_m_some fun e => (e.1, seen e.2)]
  · exact congrArg some (Dict.of_list_ordered (Dict.map_ascending seen ascending))
  · intro e member
    simp only [Function.comp_apply]
    rw [reads e.2 (List.mem_map_of_mem member)]
    rfl

theorem dict_written (r : Reader α) (write : α → Json) {d : Dict α} (ascending : d.Ascending)
    (reads : ∀ a ∈ d.values, r (ofJson (write a)) = some a) : r.dict (ofJson (.obj (d.map write))) = some d := by
  rw [dict_read r write id ascending reads]
  exact congrArg (fun entries => some (⟨entries⟩ : Dict α)) (List.map_id d.entries)

end Reader

end Flowstep.Json
