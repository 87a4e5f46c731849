import Flowstep.Proofs.Operands
import Flowstep.Proofs.Records
import Flowstep.Proofs.Running
import Flowstep.Script.Recorder

/-!
The literals of a script have the values that they were written for, and known texts are joined as they would be at run time.
-/
namespace Flowstep.Code

open Flowstep.Flow (Fragment)
open Script (Expr Machine Program Spells Value isIdentifier)
open Script.Interp

mutual

def elementless : Json → Bool
  | .arr items => elementlessItems items
  | .obj ⟨fields⟩ => fields.map Prod.fst != ["__element__"] && elementlessFields fields
  | _ => true

def elementlessItems : List Json → Bool
  | [] => true
  | j :: rest => elementless j && elementlessItems rest

def elementlessFields : List (String × Json) → Bool
  | [] => true
  | (_, j) :: rest => elementless j && elementlessFields rest

end

theorem elementless_map {fields : List (String × Json)} (other : fields.map Prod.fst ≠ ["__element__"]) :
    Value.ofJson (.obj ⟨fields⟩) = .map ⟨Value.ofJsonFields fields⟩ := by
  rw [Value.ofJson]
  rintro d rfl
  exact other rfl

variable (fields : List (String × Json)) (ctx : Script.Context σ) (m : Machine σ)

theorem canonical_names : (Json.canonicalFields fields).map Prod.fst = fields.map Prod.fst := by
  induction fields with
  | nil => rfl
  | cons f rest ih => rw [Json.canonicalFields, List.map_cons, ih, List.map_cons]

theorem canonical_object {fields : List (String × Json)} (ordered : (Json.obj ⟨fields⟩).canonical = .obj ⟨fields⟩) :
    fields.Pairwise (·.1 < ·.1) ∧ Json.canonicalFields fields = fields := by
  injection ordered with same
  have ascending : fields.Pairwise (·.1 < ·.1) := by
    have known := Dict.of_list_ascending (Json.canonicalFields fields)
    rwa [same] at known
  refine ⟨ascending, ?_⟩
  have names : (fields.map Prod.fst).Pairwise (· < ·) := List.pairwise_map.mpr ascending
  rw [← canonical_names] at names
  rw [Dict.of_list_ordered (List.pairwise_map.mp names)] at same
  injection same

theorem word_of_int {n : Int} (above : -2 ^ 63 < n) (below : n < 2 ^ 63) : Value.ofInt n = .int (Int64.ofInt n) := by
  rw [Value.ofInt, Word.ofInt?, if_pos ⟨by rw [Word.least]; omega, by rw [Word.greatest]; omega⟩]

theorem literal_entries_map : literalEntries fields = fields.map fun f => (.lit (.str f.1), literalExpr f.2) := by
  induction fields with
  | nil => rfl
  | cons f rest ih =>
    rw [literalEntries, ih]
    rfl

theorem json_fields_map : Value.ofJsonFields fields = fields.map fun f => (f.1, Value.ofJson f.2) := by
  induction fields with
  | nil => rfl
  | cons f rest ih => rw [Value.ofJsonFields, ih, List.map_cons]

section

variable {σ : Type} (ctx : Script.Context σ) (m : Machine σ)

mutual

theorem literal_evaluates (j : Json) (ordered : j.canonical = j) (reads : readable j) (plain : elementless j) :
    Settles (eval ctx · (literalExpr j)) m (.ok (Value.ofJson j) m) := by
  match j with
  | .null | .bool _ | .float _ | .str _ => exact settles_lit ctx _ m
  | .int n =>
    simp only [readable, Bool.and_eq_true, decide_eq_true_eq] at reads
    rw [Value.ofJson, word_of_int reads.1 reads.2]
    exact settles_lit ctx _ m
  | .arr items =>
    injection ordered with ordered
    exact settles_list ctx (literals_evaluate items ordered reads plain)
  | .obj ⟨fields⟩ =>
    obtain ⟨ascending, ordered⟩ := canonical_object ordered
    rw [elementless, Bool.and_eq_true, bne_iff_ne] at plain
    have each := fields_evaluate fields ordered reads plain.2
    have made := settles_map ctx (fields.map fun f => (f.1, literalExpr f.2, Value.ofJson f.2)) m
      (List.forall_mem_map.mpr each)
    rw [List.map_map, List.map_map] at made
    have inOrder : (Value.ofJsonFields fields).Pairwise (·.1 < ·.1) := by
      rw [json_fields_map]
      exact List.pairwise_map.mpr ascending
    rw [elementless_map plain.1, ← Dict.of_list_ordered inOrder, literalExpr, literal_entries_map, json_fields_map]
    exact made

theorem literals_evaluate (items : List Json) (ordered : Json.canonicalItems items = items) (reads : readableItems items)
    (plain : elementlessItems items) :
    Settles (evalItems ctx · (literalExprs items)) m (.ok (Value.ofJsonItems items) m) := by
  match items with
  | [] => exact settles_items_nil ctx m
  | j :: rest =>
    injection ordered with first others
    rw [readableItems, Bool.and_eq_true] at reads
    rw [elementlessItems, Bool.and_eq_true] at plain
    exact settles_items_cons ctx (literal_evaluates j first reads.1 plain.1)
      (literals_evaluate rest others reads.2 plain.2)

theorem fields_evaluate (fields : List (String × Json)) (ordered : Json.canonicalFields fields = fields)
    (reads : readableFields fields) (plain : elementlessFields fields) :
    ∀ f ∈ fields, Settles (eval ctx · (literalExpr f.2)) m (.ok (Value.ofJson f.2) m) := by
  match fields with
  | [] => simp
  | (k, j) :: rest =>
    injection ordered with first others
    rw [readableFields, Bool.and_eq_true] at reads
    rw [elementlessFields, Bool.and_eq_true] at plain
    exact List.forall_mem_cons.mpr ⟨literal_evaluates j (Prod.mk.inj first).2 reads.1 plain.1,
      fields_evaluate rest others reads.2 plain.2⟩

end

end

theorem assigned_code {code : String} {e : Expr} (spells : Spells 0 0 code e) :
    Program.parse ("x = " ++ code) = .ok ⟨[⟨1, .assign [.name "x"] e⟩]⟩ := by
  have written := Script.written_assign_one 0 1 _ "x" (.name "x") code none e rfl (Script.binds_name "x" (by decide))
    (Script.spells_denotes spells (by decide))
  have read := Script.parse_written 1 (by decide) (by simp) written
  have text : render 1 [⟨0, "x" ++ " = " ++ code, none⟩] = "x = " ++ code := String.empty_append
  rwa [text] at read

theorem literal_survives (v : Json) (ordered : v.canonical = v) (reads : readable v) (plain : elementless v) :
    ∃ e, Program.parse ("x = " ++ literal v) = .ok ⟨[⟨1, .assign [.name "x"] e⟩]⟩ ∧
      ∀ {σ : Type} (ctx : Script.Context σ) (m : Machine σ), Settles (eval ctx · e) m (.ok (Value.ofJson v) m) := by
  have spells := Script.spells_below (spells_literal 0 v reads) (by decide) (Nat.zero_le _)
  exact ⟨literalExpr v, assigned_code spells, fun ctx m => literal_evaluates ctx m v ordered reads plain⟩

theorem nested_literal_survives : ∃ e, Program.parse ("x = " ++
      literal (.obj ⟨[("a\"", .arr [.int (-7), .null, .obj ⟨[("k", .str "it's\n")]⟩]), ("b", .bool true)]⟩)) =
        .ok ⟨[⟨1, .assign [.name "x"] e⟩]⟩ ∧
    ∀ {σ : Type} (ctx : Script.Context σ) (m : Machine σ), Settles (eval ctx · e) m (.ok (.map
      ⟨[("a\"", .list [.int (-7), .none, .map ⟨[("k", .str "it's\n")]⟩]), ("b", .bool true)]⟩) m) :=
  literal_survives _ rfl (by decide) (by decide)

mutual

def unquoted : Json → Bool
  | .null | .bool _ => true
  | .int n => -2 ^ 63 < n && n < 2 ^ 63
  | .float _ | .str _ => false
  | .arr items => unquotedItems items
  | .obj ⟨fields⟩ => fields.isEmpty

def unquotedItems : List Json → Bool
  | [] => true
  | j :: rest => unquoted j && unquotedItems rest

end

def spokenAlike : Json → Bool
  | .str _ => true
  | .null => false
  | j => unquoted j

mutual

theorem unquoted_shown {j : Json} (plain : unquoted j) :
    readable j ∧ elementless j ∧ j.canonical = j ∧ (Value.ofJson j).repr = literal j := by
  match j with
  | .null => exact ⟨rfl, rfl, rfl, rfl⟩
  | .bool b => exact ⟨rfl, rfl, rfl, by cases b <;> rfl⟩
  | .int n =>
    simp only [unquoted, Bool.and_eq_true, decide_eq_true_eq] at plain
    have word : (Int64.ofInt n).toInt = n := Int64.toInt_ofInt_of_le (by omega) (by omega)
    refine ⟨by simpa [readable] using plain, rfl, rfl, ?_⟩
    rw [Value.ofJson, word_of_int plain.1 plain.2, Value.repr, word, literal]
  | .arr items =>
    obtain ⟨reads, bare, ordered, shown⟩ := unquoted_items_shown plain
    exact ⟨reads, bare, by rw [Json.canonical, ordered], by rw [Value.ofJson, Value.repr, shown, literal]⟩
  | .obj ⟨fields⟩ =>
    obtain rfl := List.isEmpty_iff.mp plain
    exact ⟨rfl, rfl, rfl, rfl⟩

theorem unquoted_items_shown {items : List Json} (plain : unquotedItems items) :
    readableItems items ∧ elementlessItems items ∧ Json.canonicalItems items = items ∧
      Value.reprItems (Value.ofJsonItems items) = literalItems items := by
  match items with
  | [] => exact ⟨rfl, rfl, rfl, rfl⟩
  | j :: rest =>
    rw [unquotedItems, Bool.and_eq_true] at plain
    obtain ⟨reads, bare, ordered, shown⟩ := unquoted_shown plain.1
    obtain ⟨allRead, allBare, allOrdered, allShown⟩ := unquoted_items_shown plain.2
    refine ⟨?_, ?_, ?_, ?_⟩
    · rw [readableItems, reads, allRead]
      rfl
    · rw [elementlessItems, bare, allBare]
      rfl
    · rw [Json.canonicalItems, ordered, allOrdered]
    · rw [Value.ofJsonItems, Value.reprItems, shown, allShown, literalItems]

end

theorem alike_readable {j : Json} (alike : spokenAlike j) : readable j := by
  cases j with
  | str _ => rfl
  | null => cases alike
  | _ => exact (unquoted_shown alike).1

variable {σ : Type}

theorem alike_evaluates {j : Json} (alike : spokenAlike j) (free : Unbound "str" m) :
    Settles (eval ctx · (callOf "str" [literalExpr j])) m (.ok (.str (literalText j)) m) := by
  have shown : (Value.ofJson j).display = literalText j ∧ j.canonical = j ∧ elementless j := by
    cases j with
    | str _ => exact ⟨rfl, rfl, rfl⟩
    | null => cases alike
    | bool b =>
      obtain ⟨_, bare, ordered, shown⟩ := unquoted_shown alike
      exact ⟨shown, ordered, bare⟩
    | int n =>
      obtain ⟨reads, bare, ordered, shown⟩ := unquoted_shown alike
      simp only [readable, Bool.and_eq_true, decide_eq_true_eq] at reads
      rw [Value.ofJson, word_of_int reads.1 reads.2] at shown ⊢
      exact ⟨shown, ordered, bare⟩
    | float x => cases alike
    | arr items =>
      obtain ⟨_, bare, ordered, shown⟩ := unquoted_shown alike
      exact ⟨shown, ordered, bare⟩
    | obj fields =>
      obtain ⟨fields⟩ := fields
      obtain rfl := List.isEmpty_iff.mp alike
      exact ⟨rfl, rfl, rfl⟩
  rw [← shown.1]
  exact settles_text_of ctx free (literal_evaluates ctx m j shown.2.1 (alike_readable alike) shown.2.2)

theorem settles_joined (parts : List (Expr × String)) (first : Expr) (text : String)
    (head : Settles (eval ctx · first) m (.ok (.str text) m))
    (each : ∀ p ∈ parts, Settles (eval ctx · p.1) m (.ok (.str p.2) m)) :
    Settles (eval ctx · ((parts.map Prod.fst).foldl (.bin .add) first)) m
      (.ok (.str (text ++ String.join (parts.map Prod.snd))) m) := by
  induction parts generalizing first text with
  | nil =>
    rw [List.map_nil, List.map_nil, String.join_nil, String.append_empty]
    exact head
  | cons p rest ih =>
    rw [List.forall_mem_cons] at each
    rw [List.map_cons, List.map_cons, String.join_cons, ← String.append_assoc]
    exact ih _ _ (settles_succ (fun fuel => by rw [eval]) (settles_bind head (settles_bind each.1 (settles_fixed (pure (Value.str (text ++ p.2))) m)))) each.2

def Adds {σ : Type} (ctx : Script.Context σ) (m : Machine σ) (f : Fragment) (text : String) : Prop :=
  namedFragment f ∧ (f.tag.needsEvaluation = false → readable f.data) ∧
    Settles (eval ctx · (callOf "str" [pieceExpr f])) m (.ok (.str text) m)

theorem known_adds {f : Fragment} (known : f.tag.needsEvaluation = false)
    (alike : spokenAlike f.data) (free : Unbound "str" m) : Adds ctx m f (literalText f.data) := by
  obtain ⟨tag, data⟩ := f
  have evaluates := alike_evaluates ctx m alike free
  cases tag with
  | text | other | element => exact ⟨rfl, fun _ => alike_readable alike, evaluates⟩
  | _ => cases known

theorem joined_evaluates (parts : List (Fragment × String)) (filled : parts ≠ []) (each : ∀ p ∈ parts, Adds ctx m p.1 p.2) :
    ∃ e, Program.parse ("x = " ++ Operand.joined (parts.map Prod.fst)) = .ok ⟨[⟨1, .assign [.name "x"] e⟩]⟩ ∧
      Settles (eval ctx · e) m (.ok (.str (String.join (parts.map Prod.snd))) m) := by
  match parts with
  | [] => exact absurd rfl filled
  | p :: rest =>
    have named : ∀ g ∈ (p :: rest).map Prod.fst, namedFragment g := List.forall_mem_map.mpr fun q member => (each q member).1
    have reads : ∀ g ∈ (p :: rest).map Prod.fst, g.tag.needsEvaluation = false → readable g.data :=
      List.forall_mem_map.mpr fun q member => (each q member).2.1
    have spells : Spells 0 4 (Operand.joined ((p :: rest).map Prod.fst)) _ := spells_joined named (known_forall.mpr reads)
    refine ⟨_, assigned_code (Script.spells_below spells (by decide) (Nat.zero_le _)), ?_⟩
    have whole := settles_joined ctx m (rest.map fun q => (callOf "str" [pieceExpr q.1], q.2)) _ _
      (each p List.mem_cons_self).2.2 (List.forall_mem_map.mpr fun q member => (each q (List.mem_cons_of_mem _ member)).2.2)
    rw [List.map_map, List.map_map] at whole
    rw [List.map_map, List.map_cons, String.join_cons]
    exact whole

theorem several_operand {fragments : List Fragment} (several : 2 ≤ fragments.length) :
    Operand.ofFragments fragments = if fragments.any (·.tag.needsEvaluation) then .expression (Operand.joined fragments)
      else .literal (.str (String.join (fragments.map fun f => literalText f.data))) := by
  match fragments, several with
  | f :: g :: rest, _ => rfl

-- Known texts are joined as they would be at run time, also when something blank is evaluated between them.
theorem known_texts_join_alike {σ : Type} (ctx : Script.Context σ) (m : Machine σ) (fragments : List Fragment)
    (several : 2 ≤ fragments.length) (known : ∀ f ∈ fragments, f.tag.needsEvaluation = false)
    (alike : ∀ f ∈ fragments, spokenAlike f.data) (free : Unbound "str" m) :
    ∃ text, Operand.ofFragments fragments = .literal (.str text) ∧
      (∃ e, Program.parse ("x = " ++ Operand.joined fragments) = .ok ⟨[⟨1, .assign [.name "x"] e⟩]⟩ ∧
        Settles (eval ctx · e) m (.ok (.str text) m)) ∧
      ∀ front back blank, fragments = front ++ back → blank.tag.needsEvaluation → namedFragment blank →
        Settles (eval ctx · (pieceExpr blank)) m (.ok (.str "") m) →
        ∃ e, Program.parse ("x = " ++ (Operand.ofFragments (front ++ blank :: back)).code) =
            .ok ⟨[⟨1, .assign [.name "x"] e⟩]⟩ ∧ Settles (eval ctx · e) m (.ok (.str text) m) := by
  have adds (part : List Fragment) (inside : ∀ f ∈ part, f ∈ fragments) :
      ∀ p ∈ part.map fun f => (f, literalText f.data), Adds ctx m p.1 p.2 :=
    List.forall_mem_map.mpr fun f member => known_adds ctx m (known f (inside f member)) (alike f (inside f member)) free
  refine ⟨String.join (fragments.map fun f => literalText f.data), ?_, ?_, ?_⟩
  · have none : fragments.any (·.tag.needsEvaluation) = false := List.any_eq_false.mpr fun f member => by simp [known f member]
    rw [several_operand several, none]
    rfl
  · have whole := joined_evaluates ctx m (fragments.map fun f => (f, literalText f.data)) (by
      rintro nothing
      rw [List.map_eq_nil_iff.mp nothing] at several
      cases several) (adds fragments fun _ member => member)
    rw [List.map_map, List.map_map] at whole
    simpa [Function.comp_def] using whole
  · rintro front back blank rfl needed named empty
    have whole := joined_evaluates ctx m ((front.map fun f => (f, literalText f.data)) ++ (blank, "") ::
        back.map fun f => (f, literalText f.data)) (by simp) (by
      refine List.forall_mem_append.mpr ⟨adds front fun f member => List.mem_append_left _ member, List.forall_mem_cons.mpr
        ⟨⟨named, fun other => ?_, settles_text_of ctx free empty⟩, adds back fun f member => List.mem_append_right _ member⟩⟩
      rw [needed] at other
      cases other)
    have some : (front ++ blank :: back).any (·.tag.needsEvaluation) = true := List.any_eq_true.mpr ⟨blank, by simp, needed⟩
    have long : 2 ≤ (front ++ blank :: back).length := by
      rw [List.length_append] at several
      simp only [List.length_append, List.length_cons]
      omega
    rw [several_operand long, some, if_pos rfl, Operand.code]
    simpa [Function.comp_def] using whole

def blankMachine : Machine Script.Recorder.State :=
  { Machine.start ⟨∅, ⟨∅, ∅, [], none, []⟩⟩ with frames := ⟨⟨[("v", .str "")]⟩, []⟩ }

theorem blank_between_texts : ∃ e,
    Program.parse ("x = " ++ (Operand.ofFragments [⟨.text, .str "rows: "⟩, ⟨.flowVariable, .str "v"⟩,
      ⟨.other, .arr [.int 1, .bool true]⟩]).code) = .ok ⟨[⟨1, .assign [.name "x"] e⟩]⟩ ∧
    Settles (eval ⟨Script.Recorder.host, "p1"⟩ · e) blankMachine (.ok (.str "rows: [1, True]") blankMachine) := by
  obtain ⟨text, joined, _, between⟩ := known_texts_join_alike ⟨Script.Recorder.host, "p1"⟩ blankMachine
    [⟨.text, .str "rows: "⟩, ⟨.other, .arr [.int 1, .bool true]⟩] (by decide) (by decide) (by decide) ⟨rfl, rfl⟩
  have same : text = "rows: [1, True]" := by
    injection joined with joined
    injection joined with joined
    rw [← joined]
    decide
  rw [← same]
  exact between [_] [_] ⟨.flowVariable, .str "v"⟩ rfl rfl (by decide) (settles_name _ rfl)

-- Nothing is written for a null that is known, and its name for one that is evaluated.
theorem null_joins_apart : Operand.ofFragments [⟨.text, .str "n="⟩, ⟨.other, .null⟩] = .literal (.str "n=") ∧
    ∃ e, Program.parse ("x = " ++ Operand.joined [⟨.text, .str "n="⟩, ⟨.other, .null⟩]) =
        .ok ⟨[⟨1, .assign [.name "x"] e⟩]⟩ ∧
      Settles (eval ⟨Script.Recorder.host, "p1"⟩ · e) blankMachine (.ok (.str "n=None") blankMachine) := by
  have free : Unbound "str" blankMachine := ⟨rfl, rfl⟩
  refine ⟨rfl, joined_evaluates _ blankMachine [(⟨.text, .str "n="⟩, "n="), (⟨.other, .null⟩, "None")] (by simp) ?_⟩
  refine List.forall_mem_cons.mpr ⟨known_adds _ _ rfl rfl free, List.forall_mem_singleton.mpr ⟨rfl, fun _ => rfl, ?_⟩⟩
  exact settles_text_of _ free (settles_lit _ .none _)

end Flowstep.Code
