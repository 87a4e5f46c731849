import Flowstep.Proofs.Integers

/-!
Values as JSON.
-/
namespace Flowstep

inductive Json.Fits : Json → Prop where
  | null : Fits .null
  | bool (flag : Bool) : Fits (.bool flag)
  | int (n : Int) (held : Script.Held n) : Fits (.int n)
  | float (x : Float) (finite : x.isFinite) : Fits (.float x)
  | str (s : String) : Fits (.str s)
  | arr (items : List Json) (all : ∀ j ∈ items, Fits j) : Fits (.arr items)
  | obj (fields : List (String × Json)) (all : ∀ e ∈ fields, Fits e.2) : Fits (.obj ⟨fields⟩)

namespace Script.Value

-- Values without a reference to a unit, without a double that is no finite number, and without a map that looks like an element.
inductive Plain : Value → Prop where
  | none : Plain .none
  | bool (flag : Bool) : Plain (.bool flag)
  | int (n : Int64) : Plain (.int n)
  | float (x : Float) (finite : x.isFinite) : Plain (.float x)
  | str (s : String) : Plain (.str s)
  | list (items : List Value) (all : ∀ v ∈ items, Plain v) : Plain (.list items)
  | map (entries : List (String × Value)) (other : entries.map (·.1) ≠ ["__element__"]) (all : ∀ e ∈ entries, Plain e.2) :
    Plain (.map ⟨entries⟩)
  | element (d : Value) (plain : Plain d) : Plain (.element d)

theorem to_json_items (items : List Value) : toJsonItems items = items.map toJson := by
  induction items with
  | nil => rw [toJsonItems, List.map_nil]
  | cons v rest ih => rw [toJsonItems, ih, List.map_cons]

theorem to_json_entries (entries : List (String × Value)) : toJsonEntries entries = entries.map (Prod.map id toJson) := by
  induction entries with
  | nil => rw [toJsonEntries, List.map_nil]
  | cons e rest ih => rw [toJsonEntries, ih]; rfl

theorem of_json_items (items : List Json) : ofJsonItems items = items.map ofJson := by
  induction items with
  | nil => rw [ofJsonItems, List.map_nil]
  | cons j rest ih => rw [ofJsonItems, ih, List.map_cons]

theorem of_json_fields (fields : List (String × Json)) : ofJsonFields fields = fields.map (Prod.map id ofJson) := by
  induction fields with
  | nil => rw [ofJsonFields, List.map_nil]
  | cons e rest ih => rw [ofJsonFields, ih]; rfl

theorem of_json_object {fields : List (String × Json)} (other : fields.map (·.1) ≠ ["__element__"]) :
    ofJson (.obj ⟨fields⟩) = .map ⟨fields.map (Prod.map id ofJson)⟩ := by
  rw [ofJson, of_json_fields]
  rintro d ⟨⟩
  exact other rfl

theorem all_survive {α β : Type} {f : α → β} {g : β → α} {items : List α} (all : ∀ a ∈ items, g (f a) = a) :
    (items.map f).map g = items := by
  rw [List.map_map]
  exact (List.map_congr_left all).trans (List.map_id' items)

theorem json_survives {j : Json} (fits : j.Fits) : (ofJson j).toJson = j := by
  induction fits with
  | null => rfl
  | bool flag => rfl
  | int n held => rw [ofJson, ofInt, word_of_held held, toJson, word_to_int held]
  | float x finite => rw [ofJson, toJson, if_pos finite]
  | str s => rfl
  | arr items all ih =>
    rw [ofJson, toJson, to_json_items, of_json_items, all_survive ih]
  | obj fields all ih =>
    by_cases single : fields.map (·.1) = ["__element__"]
    · obtain ⟨⟨k, d⟩, rfl, rfl⟩ := List.map_eq_singleton_iff.mp single
      rw [ofJson, toJson, ih _ (List.mem_singleton_self _)]
    · rw [of_json_object single, toJson, to_json_entries, all_survive fun e member => congrArg (Prod.mk e.1) (ih e member)]

theorem value_survives {v : Value} (plain : v.Plain) : ofJson v.toJson = v := by
  induction plain with
  | none => rfl
  | bool flag => rfl
  | int n => rw [toJson, ofJson, ofInt, word_of_held (held_word n), Int64.ofInt_toInt]
  | float x finite => rw [toJson, if_pos finite, ofJson]
  | str s => rfl
  | list items all ih =>
    rw [toJson, ofJson, to_json_items, of_json_items, all_survive ih]
  | map entries other all ih =>
    rw [toJson, to_json_entries, of_json_object (by simpa using other), all_survive fun e member => congrArg (Prod.mk e.1) (ih e member)]
  | element d plain ih => rw [toJson, ofJson, ih]

theorem values_survive_json {j : Json} {v : Value} (fits : j.Fits) (plain : v.Plain) :
    (ofJson j).toJson = j ∧ ofJson v.toJson = v := ⟨json_survives fits, value_survives plain⟩

theorem nested_elements_survive :
    (ofJson (.obj ⟨[("__element__", .obj ⟨[("__element__", .int (-1)), ("a", .null)]⟩)]⟩)).toJson =
        .obj ⟨[("__element__", .obj ⟨[("__element__", .int (-1)), ("a", .null)]⟩)]⟩ ∧
      ofJson (toJson (.element (.map ⟨[("__element__", .float 2), ("a", .list [.none])]⟩))) =
        .element (.map ⟨[("__element__", .float 2), ("a", .list [.none])]⟩) := by
  refine values_survive_json (.obj _ (List.forall_mem_singleton.mpr (.obj _ (List.forall_mem_cons.mpr ⟨.int _ ?_, ?_⟩))))
    (.element _ (.map _ (by decide) (List.forall_mem_cons.mpr ⟨.float _ rfl, ?_⟩)))
  · exact ⟨by decide, by decide⟩
  · exact List.forall_mem_singleton.mpr .null
  · exact List.forall_mem_singleton.mpr (.list _ (List.forall_mem_singleton.mpr .none))

end Script.Value

end Flowstep
