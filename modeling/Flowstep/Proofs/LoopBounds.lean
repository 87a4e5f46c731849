import Flowstep.Code.Emit
import Mathlib.Data.List.Perm.Subperm

/-!
The bounds of a loop over numbers.
-/
namespace Flowstep.Code

open Flowstep.Flow (Input ParamError Step)
open Context (loopOperand)

def boundNames : List String := ["start", "end", "step"]

def boundInput (s : Step) (place : Nat) : Option Input := (s.input? (boundNames.getD place "")).or s.shownInputs[place]?

def namedBound (s : Step) (name default : String) : Except ParamError String :=
  match s.input? name with
  | some i => (Argument.ofInput s.key i).map Argument.code
  | none => .ok default

def inputNames (s : Step) : List String := s.shownInputs.map (·.name)

def Leading (names : List String) : Prop :=
  ("end" ∈ names → "start" ∈ names) ∧ ("step" ∈ names → "start" ∈ names ∧ "end" ∈ names)

section

variable {s : Step} {name : String} {place : Nat}

theorem input_named {i : Input} (found : s.input? name = some i) : i.name = name := by
  simpa using List.find?_some found

theorem input_missing : s.input? name = none ↔ name ∉ inputNames s := by
  simp [Step.input?, inputNames]

theorem operand_named {default : String} (free : name ∉ inputNames s → s.shownInputs.length ≤ place) :
    loopOperand s name place default = namedBound s name default := by
  unfold loopOperand namedBound
  cases found : s.input? name with
  | some i => rfl
  | none =>
    have absent := List.getElem?_eq_none (free (input_missing.mp found))
    rw [absent]
    rfl

-- A bound that nobody names is taken from another bound's input as soon as there are enough inputs.
theorem bound_taken (missing : boundNames.getD place "" ∉ inputNames s) (many : place < s.shownInputs.length) :
    ∃ i, boundInput s place = some i ∧ i.name ≠ boundNames.getD place "" := by
  refine ⟨s.shownInputs[place], ?_, fun same => missing ?_⟩
  · rw [boundInput, input_missing.mpr missing, List.getElem?_eq_getElem many]
    rfl
  · rw [← same]
    exact List.mem_map_of_mem (List.getElem_mem many)

theorem input_names_length (s : Step) : (inputNames s).length = s.shownInputs.length := List.length_map _

theorem length_le {names others : List String} (distinct : names.Nodup) (among : names ⊆ others) :
    names.length ≤ others.length := (List.subperm_of_subset distinct among).length_le

variable (distinct : (inputNames s).Nodup) (listed : ∀ name ∈ inputNames s, name ∈ boundNames)

include distinct listed

theorem leading_few (leading : Leading (inputNames s)) (low : place < 3)
    (missing : boundNames.getD place "" ∉ inputNames s) : s.shownInputs.length ≤ place := by
  have among : inputNames s ⊆ boundNames.take place := by
    intro name named
    have known := listed name named
    simp only [boundNames, List.mem_cons, List.not_mem_nil, or_false] at known
    obtain ⟨second, third⟩ := leading
    match place, low with
    | 0, _ => rcases known with rfl | rfl | rfl <;> simp_all [boundNames]
    | 1, _ => rcases known with rfl | rfl | rfl <;> simp_all [boundNames]
    | 2, _ => rcases known with rfl | rfl | rfl <;> simp_all [boundNames]
  rw [← input_names_length]
  exact Nat.le_trans (length_le distinct among) (List.length_take_le place boundNames)

theorem bounds_named_iff : (∀ place < 3, ∀ i, boundInput s place = some i → i.name = boundNames.getD place "") ↔
    Leading (inputNames s) := by
  constructor
  · intro own
    have present (place : Nat) (low : place < 3) (many : place < (inputNames s).length) :
        boundNames.getD place "" ∈ inputNames s := by
      rw [input_names_length] at many
      by_contra missing
      obtain ⟨i, taken, other⟩ := bound_taken missing many
      exact other (own place low i taken)
    have first {name : String} (named : name ∈ inputNames s) : "start" ∈ inputNames s :=
      present 0 (by decide) (List.length_pos_of_mem named)
    refine ⟨first, fun third => ⟨first third, present 1 (by decide) ?_⟩⟩
    have pair : ["start", "step"] ⊆ inputNames s := by simpa using ⟨first third, third⟩
    exact length_le (by decide) pair
  · intro leading place low i taken
    unfold boundInput at taken
    cases found : s.input? (boundNames.getD place "") with
    | some j =>
      rw [found] at taken
      cases taken
      exact input_named found
    | none =>
      have few := leading_few distinct listed leading low (input_missing.mp found)
      rw [found, List.getElem?_eq_none few] at taken
      cases taken

theorem leading_operand (place : Nat) {default : String} (leading : Leading (inputNames s)) (low : place < 3) :
    loopOperand s (boundNames.getD place "") place default = namedBound s (boundNames.getD place "") default :=
  operand_named (leading_few distinct listed leading low)

end

theorem range_bounds_from_names (c : Context) (s : Step) (indent : Nat) (distinct : (inputNames s).Nodup)
    (listed : ∀ name ∈ inputNames s, name ∈ boundNames) :
    ((∀ place < 3, ∀ i, boundInput s place = some i → i.name = boundNames.getD place "") ↔ Leading (inputNames s)) ∧
    (Leading (inputNames s) → c.loopLines .range s indent = do
      let start ← namedBound s "start" "0"
      let stop ← namedBound s "end" "0"
      let stride ← namedBound s "step" "1"
      return [⟨indent, "for " ++ (c.targets s).head?.getD "i" ++ " in range(int_param(\"start\", " ++ start ++
        "), int_param(\"end\", " ++ stop ++ "), int_param(\"step\", " ++ stride ++ ")):", some s.line⟩]) := by
  refine ⟨bounds_named_iff distinct listed, fun leading => ?_⟩
  have start : loopOperand s "start" 0 "0" = namedBound s "start" "0" :=
    leading_operand distinct listed 0 leading (by decide)
  have stop : loopOperand s "end" 1 "0" = namedBound s "end" "0" :=
    leading_operand distinct listed 1 leading (by decide)
  have stride : loopOperand s "step" 2 "1" = namedBound s "step" "1" :=
    leading_operand distinct listed 2 leading (by decide)
  rw [Context.loopLines, Context.rangeHeader, start, stop, stride]
  simp only [bind_assoc, pure_bind]

def counting (bounds : List (String × Int)) : Step where
  key := "forStep"
  inputs := bounds.map fun b => ⟨b.1, "", [⟨.other, .int b.2⟩], true, none⟩

theorem named_bounds_in_any_order : (inputNames (counting [("end", 9), ("start", 4)])).Nodup ∧
    (∀ name ∈ inputNames (counting [("end", 9), ("start", 4)]), name ∈ boundNames) ∧
    Leading (inputNames (counting [("end", 9), ("start", 4)])) ∧
    Context.loopLines ⟨"main", [], false⟩ .range (counting [("end", 9), ("start", 4)]) 1 = .ok
      [⟨1, "for i in range(int_param(\"start\", 4), int_param(\"end\", 9), int_param(\"step\", 1)):", some 0⟩] := by
  have distinct : (inputNames (counting [("end", 9), ("start", 4)])).Nodup := by decide
  have listed : ∀ name ∈ inputNames (counting [("end", 9), ("start", 4)]), name ∈ boundNames := by decide
  have leading : Leading (inputNames (counting [("end", 9), ("start", 4)])) := by
    unfold Leading
    decide
  exact ⟨distinct, listed, leading, (range_bounds_from_names ⟨"main", [], false⟩ _ 1 distinct listed).2 leading⟩

-- The only input names the end of the range and is its start as well, which leaves no round.
theorem lone_end_is_the_start_too : (inputNames (counting [("end", 2)])).Nodup ∧
    (∀ name ∈ inputNames (counting [("end", 2)]), name ∈ boundNames) ∧
    namedBound (counting [("end", 2)]) "start" "0" = .ok "0" ∧
    Context.loopLines ⟨"main", [], false⟩ .range (counting [("end", 2)]) 1 = .ok
      [⟨1, "for i in range(int_param(\"start\", 2), int_param(\"end\", 2), int_param(\"step\", 1)):", some 0⟩] := by
  refine ⟨by decide, by decide, rfl, rfl⟩

end Flowstep.Code
