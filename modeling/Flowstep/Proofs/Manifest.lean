import Flowstep.Project.Archive
import Flowstep.Proofs.JsonText
import Flowstep.Proofs.LineMapping
import Flowstep.Proofs.Records

/-!
The manifest of a compiled project, once it is decoded, says again what was written into it.
-/
namespace Flowstep.Flow

open Json.Written (ofJson)

theorem direction_coded (d : Direction) : Direction.read (ofJson (.int d.code)) = some d := by
  cases d <;> rfl

theorem variable_written (v : Variable) :
    v.toJson = .obj ⟨[("varDirection", .int v.direction.code), ("varName", .str v.name), ("varType", .str v.typeName),
      ("varValue", v.value)]⟩ := by
  simp only [Variable.toJson, Json.ofFields, Dict.ofList, List.foldl_cons, List.foldl_nil, Dict.insert, Dict.insertEntry,
    Dict.empty, String.reduceLT, String.reduceEq, if_true, if_false]

theorem variable_read {v : Variable} (canonical : v.value.canonical = v.value) :
    Variable.read (ofJson v.toJson) = some v := by
  have value := Json.value_of_written v.value
  rw [canonical] at value
  have coded := direction_coded v.direction
  rw [ofJson] at coded
  rw [variable_written]
  simp [Variable.read, Json.slots, Json.objectSlots, Json.slotOf, ofJson, Json.Written.ofFields, Json.Slot.required,
    Json.Slot.getD, Json.Reader.text, Json.Reader.tree, value, coded]

end Flowstep.Flow

namespace Flowstep.Package

open Json.Written (ofJson)

theorem requirement_read (r : Requirement) : Requirement.read (ofJson r.toJson) = some r := by
  obtain ⟨package, version, strict, index⟩ := r
  cases version <;> cases index <;> rfl

end Flowstep.Package

namespace Flowstep.Project

open Json.Written (ofJson)

theorem natural_read {n : Nat} (fits : n < UInt64.size) : Json.Reader.natural (ofJson (.int n)) = some n := by
  rw [ofJson, Json.Reader.natural, Json.Reader.below, if_pos ⟨Int.natCast_nonneg n, Int.ofNat_lt.mpr fits⟩]
  rfl

theorem text_read (s : String) : Json.Reader.text (ofJson (.str s)) = some s := by rw [ofJson, Json.Reader.text]

theorem step_info_read {s : StepInfo} (fits : s.line < UInt64.size) : StepInfo.read (ofJson s.toJson) = some s := by
  have found := Json.slots_written [("line", .int s.line), ("step_id", .str s.id), ("label", .str s.label), ("key", .str s.key)]
    (by simp)
  rw [← StepInfo.toJson] at found
  simp only [List.map_cons, List.map_nil] at found
  -- The bound of a line number is too large to be computed with, so no step is left to evaluation.
  simp -implicitDefEqProofs only [StepInfo.read, found, Json.Slot.required_read (natural_read fits),
    Json.Slot.required_read (text_read _), Option.bind_eq_bind, Option.bind_some]
  rfl

theorem line_set_ordered {lines : List Nat} (ascending : lines.Pairwise (· < ·)) : lineSet lines = lines := by
  have added (rest front : List Nat) (ascending : (front ++ rest).Pairwise (· < ·)) :
      rest.foldl (fun s n => Code.LineMap.insertLine n s) front = front ++ rest := by
    induction rest generalizing front with
    | nil => simp
    | cons n rest ih =>
      have below : ∀ x ∈ front, x < n := fun x member =>
        (List.pairwise_append.mp ascending).2.2 x member n List.mem_cons_self
      rw [List.foldl_cons, Code.LineMap.insert_line_last below, ih (front ++ [n]) (by simpa using ascending)]
      simp
  exact added lines [] ascending

theorem category_read (c : Category) : Json.Reader.looseWord Category.ofWord? (ofJson (.str c.word)) = some c := by
  cases c <;> rfl

structure UnitCode.Recordable (u : UnitCode) : Prop where
  canonical : ∀ v ∈ u.params, v.value.canonical = v.value
  ascending : u.breakpoints.Pairwise (· < ·)
  breakpoints : ∀ n ∈ u.breakpoints, n < UInt64.size
  steps : ∀ s ∈ u.steps, s.line < UInt64.size

def UnitCode.bare (u : UnitCode) : UnitCode := { u with source := "", lineMap := none }

theorem unit_read {u : UnitCode} (recordable : u.Recordable) : UnitCode.read (ofJson u.toJson) = some u.bare := by
  have found := Json.object_slots_written [("id", .str u.id), ("name", .str u.name), ("category", .str u.category.word),
    ("file_id", .str u.stem), ("params", .arr (u.params.map Flow.Variable.toJson)),
    ("breakpoints", .arr (u.breakpoints.map fun (n : Nat) => .int n)),
    ("step_meta", .arr (u.steps.map StepInfo.toJson)), ("digest", .str u.digest)] (by simp)
  rw [← UnitCode.toJson] at found
  simp only [List.map_cons, List.map_nil] at found
  have params := Json.Reader.list_written Flow.Variable.read Flow.Variable.toJson u.params fun v member =>
    Flow.variable_read (recordable.canonical v member)
  have breakpoints := Json.Reader.list_written .natural (fun (n : Nat) => .int n) u.breakpoints fun n member =>
    natural_read (recordable.breakpoints n member)
  have steps := Json.Reader.list_written StepInfo.read StepInfo.toJson u.steps fun s member =>
    step_info_read (recordable.steps s member)
  simp only [UnitCode.read, Json.Reader.tree, Json.value_of_written, found, Json.Slot.required, Option.bind_eq_bind,
    Option.bind_some, category_read, params, breakpoints, steps, line_set_ordered recordable.ascending]
  rfl

structure Bundle.Recordable (b : Bundle) : Prop where
  units : b.units.Ascending
  each : ∀ u ∈ b.units.values, u.Recordable
  globals : b.globals.Ascending
  titles : b.titles.Ascending
  names : ∀ t ∈ b.titles.values, t.Ascending

def Bundle.bare (b : Bundle) : Bundle := { b with units := b.units.map UnitCode.bare }

theorem manifest_read {b : Bundle} (recordable : b.Recordable) : Bundle.read (ofJson b.manifest) = some b.bare := by
  have found := Json.slots_written [("project_id", .str b.projectId), ("name", .str b.name), ("entry", .str b.entry),
    ("units", .obj (b.units.map UnitCode.toJson)), ("globals", .obj (b.globals.map .str)),
    ("requirements", .arr (b.requirements.map Package.Requirement.toJson)),
    ("atomic_info", .obj (b.titles.map fun names => .obj (names.map .str)))] (by simp)
  rw [← Bundle.manifest] at found
  simp only [List.map_cons, List.map_nil] at found
  have globals := Json.Reader.dict_written .text .str recordable.globals fun s _ => text_read s
  have requirements := Json.Reader.list_written Package.Requirement.read Package.Requirement.toJson b.requirements
    fun r _ => Package.requirement_read r
  have titles := Json.Reader.dict_written (.dict .text) (fun names => .obj (names.map .str)) recordable.titles
    fun t member => Json.Reader.dict_written .text .str (recordable.names t member) fun s _ => text_read s
  have units := Json.Reader.dict_read UnitCode.read UnitCode.toJson UnitCode.bare recordable.units
    fun u member => unit_read (recordable.each u member)
  simp only [Bundle.read, found, Json.Slot.required, Option.bind_eq_bind, Option.bind_some, units, globals,
    requirements, titles]
  rfl

end Flowstep.Project

namespace Flowstep.Json

theorem holds_str (deep : Nat) (s : String) : Holds deep (.str s) := by simp [Holds]

theorem holds_nat (deep n : Nat) (fits : n < UInt64.size) : Holds deep (.int n) := by
  rw [Holds]
  refine ⟨?_, Int.ofNat_lt.mpr fits⟩
  rw [Word.least]
  omega

variable {deep : Nat}

theorem holds_obj {fields : List (String × Json)} (all : ∀ e ∈ fields, Holds deep e.2) :
    Holds (deep + 1) (.obj ⟨fields⟩) := by
  rw [Holds, Dict.values, List.forall_mem_map]
  exact all

theorem holds_list {α : Type} {write : α → Json} {items : List α} (all : ∀ a ∈ items, Holds deep (write a)) :
    Holds (deep + 1) (.arr (items.map write)) := by
  rw [Holds, List.forall_mem_map]
  exact all

theorem holds_dict {α : Type} {write : α → Json} {d : Dict α} (all : ∀ a ∈ d.values, Holds deep (write a)) :
    Holds (deep + 1) (.obj (d.map write)) := by
  refine holds_obj fun f member => ?_
  obtain ⟨e, inside, rfl⟩ := List.mem_map.mp member
  exact all e.2 (List.mem_map_of_mem inside)

end Flowstep.Json

namespace Flowstep.Project

open Json (Holds)
open Json.Written (ofJson)

variable {deep : Nat}

theorem variable_holds {v : Flow.Variable} (value : Holds deep v.value) : Holds (deep + 1) v.toJson := by
  rw [Flow.variable_written]
  refine Json.holds_obj ?_
  simp only [List.forall_mem_cons]
  refine ⟨Json.holds_nat deep _ ?_, Json.holds_str deep _, Json.holds_str deep _, value, by simp⟩
  cases v.direction <;> decide

theorem requirement_holds (r : Package.Requirement) : Holds (deep + 1) r.toJson := by
  have optional (t : Option String) : Holds deep (Package.Requirement.textOrNull t) := by
    cases t with
    | none => simp [Package.Requirement.textOrNull, Holds]
    | some s => exact Json.holds_str deep s
  refine Json.holds_obj ?_
  simp only [List.forall_mem_cons]
  exact ⟨Json.holds_str deep _, optional _, by simp [Holds], optional _, by simp⟩

theorem step_info_holds (deep : Nat) {s : StepInfo} (fits : s.line < UInt64.size) : Holds (deep + 1) s.toJson := by
  refine Json.holds_obj ?_
  simp only [List.forall_mem_cons]
  exact ⟨Json.holds_nat deep _ fits, Json.holds_str deep _, Json.holds_str deep _, Json.holds_str deep _, by simp⟩

theorem unit_holds {u : UnitCode} (recordable : u.Recordable) (values : ∀ v ∈ u.params, Holds deep v.value) :
    Holds (deep + 3) u.toJson := by
  refine Json.holds_obj ?_
  simp only [List.forall_mem_cons]
  refine ⟨Json.holds_str _ _, Json.holds_str _ _, Json.holds_str _ _, Json.holds_str _ _, ?_, ?_, ?_, Json.holds_str _ _, by simp⟩
  · exact Json.holds_list fun v member => variable_holds (values v member)
  · exact Json.holds_list fun n member => Json.holds_nat (deep + 1) n (recordable.breakpoints n member)
  · exact Json.holds_list fun s member => step_info_holds deep (recordable.steps s member)

-- Five levels of the manifest stand around the value of a parameter.
theorem manifest_decodes {b : Bundle} (recordable : b.Recordable)
    (values : ∀ u ∈ b.units.values, ∀ v ∈ u.params, Holds 122 v.value) :
    Json.Written.parse? (b.manifest.renderWide 0) = some (ofJson b.manifest) := by
  have holds : Holds 127 b.manifest := by
    refine Json.holds_obj ?_
    simp only [List.forall_mem_cons]
    refine ⟨Json.holds_str _ _, Json.holds_str _ _, Json.holds_str _ _, ?_, ?_, ?_, ?_, by simp⟩
    · exact Json.holds_dict fun u member => unit_holds (recordable.each u member) (values u member)
    · exact Json.holds_dict fun s _ => Json.holds_str _ s
    · exact Json.holds_list fun r _ => requirement_holds r
    · exact Json.holds_dict fun t _ => Json.holds_dict fun s _ => Json.holds_str _ s
  exact Json.parse_wide holds

end Flowstep.Project
