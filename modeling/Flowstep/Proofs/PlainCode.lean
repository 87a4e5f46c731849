import Flowstep.Proofs.Uses

/-!
Expressions that call nothing but functions of a single name.
-/
namespace Flowstep.Script

-- Every name that is read or called is among the free ones, and the script's own function is not called.
inductive Plain (free : String → Prop) : Expr → Prop where
  | lit (v : Value) : Plain free (.lit v)
  | name (n : String) (named : free n) : Plain free (.name n)
  | attr (base : Expr) (a : String) (inner : Plain free base) : Plain free (.attr base a)
  | item (base index : Expr) (container : Plain free base) (key : Plain free index) : Plain free (.index base index)
  | call (n : String) (args : List Expr) (kwargs : List (String × Expr)) (named : free n) (other : n ≠ "main")
      (positional : ∀ e ∈ args, Plain free e) (keywords : ∀ k ∈ kwargs, Plain free k.2) : Plain free (.call (.name n) args kwargs)
  | list (items : List Expr) (all : ∀ e ∈ items, Plain free e) : Plain free (.list items)
  | dict (entries : List (Expr × Expr)) (keys : ∀ e ∈ entries, Plain free e.1) (values : ∀ e ∈ entries, Plain free e.2) :
      Plain free (.dict entries)
  | bin (op : BinOp) (left right : Expr) (first : Plain free left) (second : Plain free right) : Plain free (.bin op left right)
  | cmp (op : CmpOp) (left right : Expr) (first : Plain free left) (second : Plain free right) : Plain free (.cmp op left right)

def anyName (_ : String) : Prop := True

theorem plain_path (free : String → Prop) (root : String) (path : List String) (named : free root) :
    Plain free (pathExpr (root :: path)) := by
  have step (path : List String) (e : Expr) (plain : Plain free e) : Plain free (path.foldl .attr e) := by
    induction path generalizing e with
    | nil => exact plain
    | cons a rest ih => exact ih (.attr e a) (.attr e a plain)
  exact step path (.name root) (.name root named)

end Flowstep.Script

namespace Flowstep.Code

open Flowstep.Flow (Fragment Input Step LoopKind Variable)
open Script (Expr Plain)

-- Names that begin with two underscores are those of the code itself.
def marked (name : String) : Bool := ['_', '_'].isPrefixOf name.toList

def fragmentReads (f : Fragment) : List String :=
  match f.tag with
  | .flowVariable | .parameter | .expression => [literalText f.data]
  | .text | .other | .element | .globalVariable => []

def operandReads (fragments : List Fragment) : List String := fragments.flatMap fragmentReads

def inputReads (i : Input) : List String := if i.parse = some "json_str" then [] else operandReads i.value

def usedNames : List String :=
  ["gv", "str", "element", "process", "module", "consequence", "range", "int_param", "list_param", "dict_param", "items",
    "enumerate", "sleep"]

theorem called_other {n : String} (used : n ∈ usedNames) : n ≠ "main" := by
  rintro rfl
  exact absurd used (by decide)

section

variable {free : String → Prop}

theorem plain_number (n : Int) : Plain free (numberExpr n) := .lit _

theorem plain_text (s : String) : Plain free (textExpr s) := .lit _

theorem plain_seconds {x : Float} : Plain free (secondsExpr x) := by
  unfold secondsExpr
  split <;> exact .lit _

mutual

theorem plain_literal (j : Json) : Plain free (literalExpr j) := by
  cases j with
  | null | bool _ | float _ | str _ | int _ =>
    exact .lit _
  | arr items =>
    exact .list _ (plain_literals)
  | obj fields =>
    obtain ⟨fields⟩ := fields
    exact .dict _ (fun e member => (plain_entries e member).1) fun e member => (plain_entries e member).2

theorem plain_literals {items : List Json} : ∀ e ∈ literalExprs items, Plain free e := by
  cases items with
  | nil =>
    rw [literalExprs]
    simp
  | cons j rest =>
    exact List.forall_mem_cons.mpr ⟨plain_literal j, plain_literals⟩

theorem plain_entries {fields : List (String × Json)} : ∀ e ∈ literalEntries fields, Plain free e.1 ∧ Plain free e.2 := by
  cases fields with
  | nil =>
    rw [literalEntries]
    simp
  | cons field rest =>
    obtain ⟨key, j⟩ := field
    exact List.forall_mem_cons.mpr ⟨⟨plain_text key, plain_literal j⟩, plain_entries⟩

end

variable (known : ∀ n ∈ usedNames, free n)
include known

theorem plain_call_of (name : String) (used : name ∈ usedNames) (args : List Expr) (positional : ∀ e ∈ args, Plain free e) :
    Plain free (callOf name args) :=
  .call name args [] (known name used) (called_other used) positional (by simp)

theorem plain_piece (f : Fragment) (reads : ∀ n ∈ fragmentReads f, free n) : Plain free (pieceExpr f) := by
  unfold pieceExpr
  unfold fragmentReads at reads
  cases tag : f.tag with
  | text | other | element =>
    exact plain_literal f.data
  | globalVariable => exact .item _ _ (.name "gv" (known "gv" (by decide))) (plain_text _)
  | expression | flowVariable | parameter =>
    simp only [tag] at reads
    exact .name _ (reads _ (List.mem_singleton_self _))

theorem plain_joined {rest : List Fragment} (reads : ∀ n ∈ operandReads rest, free n) (e : Expr) (plain : Plain free e) :
    Plain free ((rest.map fun g => callOf "str" [pieceExpr g]).foldl (.bin .add) e) := by
  induction rest generalizing e with
  | nil => exact plain
  | cons f rest ih =>
    rw [operandReads, List.flatMap_cons, List.forall_mem_append] at reads
    have piece := plain_call_of known "str" (by decide) [pieceExpr f] (by simpa using plain_piece known f reads.1)
    exact ih reads.2 _ (.bin .add _ _ plain piece)

theorem plain_operand (fragments : List Fragment) (reads : ∀ n ∈ operandReads fragments, free n) :
    Plain free (operandExpr fragments) := by
  unfold operandExpr
  split
  · cases fragments with
    | nil => exact plain_text ""
    | cons f rest =>
      rw [operandReads, List.flatMap_cons, List.forall_mem_append] at reads
      have piece := plain_piece known f reads.1
      cases rest with
      | nil => exact piece
      | cons g rest =>
        exact plain_joined known reads.2 _ (plain_call_of known "str" (by decide) _ (by simpa using piece))
  · split
    · exact plain_literal _
    · exact plain_text _

theorem plain_input (key : String) {i : Input} (reads : ∀ n ∈ inputReads i, free n) : Plain free (inputExpr key i) := by
  unfold inputExpr
  unfold inputReads at reads
  split
  · exact plain_literal _
  · rename_i unparsed
    rw [if_neg unparsed] at reads
    have operand := plain_operand known i.value reads
    split
    · rename_i r _
      refine plain_call_of known r.word ?_ _ (by simpa using operand)
      cases r <;> decide
    · exact operand

variable (s : Step) (reads : ∀ i ∈ s.shownInputs, ∀ n ∈ inputReads i, free n)
include reads

theorem plain_arguments : ∀ k ∈ Context.argumentExprs s, Plain free k.2 := by
  intro k member
  obtain ⟨i, shown, rfl⟩ := List.mem_map.mp member
  exact plain_input known s.key (reads i shown)

theorem plain_chosen {name : String} {position : Nat} {default : Expr} (plain : Plain free default) :
    Plain free (loopExpr s name position default) := by
  unfold loopExpr
  split
  · rename_i i found
    exact plain_input known s.key (reads i (Use.chosen_shown s name position i (Option.mem_toList.mpr found)))
  · exact plain

omit reads in
theorem plain_named {function : String} (name : String) (used : function ∈ usedNames) {value : Expr} (plain : Plain free value) :
    Plain free (namedExpr function name value) :=
  plain_call_of known function used _ (by simpa using ⟨plain_text name, plain⟩)

theorem plain_range : Plain free (Context.rangeExpr s) := by
  refine plain_call_of known "range" (by decide) _ ?_
  simp only [List.forall_mem_cons, List.not_mem_nil, false_implies, implies_true, and_true]
  refine ⟨?_, ?_, ?_⟩
  · exact plain_named known "start" (by decide) (plain_chosen known s reads (plain_number 0))
  · exact plain_named known "end" (by decide) (plain_chosen known s reads (plain_number 0))
  · exact plain_named known "step" (by decide) (plain_chosen known s reads (plain_number 1))

theorem plain_list : Plain free (Context.listExpr s) :=
  plain_named known "lists" (by decide) (plain_chosen known s reads (.list [] (by simp)))

theorem plain_map : Plain free (Context.mapExpr s) := by
  refine plain_call_of known "items" (by decide) _ ?_
  have entries : Plain free (loopExpr s "dicts" 0 (.dict [])) :=
    plain_chosen known s reads (.dict [] (by simp) (by simp))
  simpa using plain_named known "dicts" (by decide) entries

omit known reads in
theorem plain_place (c : Context) : Plain free (c.placeExpr s).2 := by
  refine .list _ ?_
  simpa using ⟨plain_number s.line, plain_text c.unit⟩

theorem plain_comparison (c : Context) : Plain free (c.comparisonExpr s) := by
  refine .call "consequence" _ _ (known _ (by decide)) (by decide) (by simp) ?_
  rw [List.forall_mem_append]
  exact ⟨plain_arguments known s reads, by simpa using plain_place s c⟩

omit known reads in
theorem plain_options (c : Context) : ∀ k ∈ c.optionExprs s, Plain free k.2 := by
  have one (condition : Prop) [Decidable condition] (name : String) (e : Expr) (plain : Plain free e) :
      ∀ k ∈ (if condition then [(name, e)] else []), Plain free k.2 := by
    split
    · simpa using plain
    · simp
  unfold Context.optionExprs
  simp only [List.forall_mem_append]
  refine ⟨⟨⟨⟨?_, one _ _ _ (plain_seconds)⟩, one _ _ _ (plain_seconds)⟩, one _ _ _ (.lit _)⟩, one _ _ _ (.lit _)⟩
  cases s.options.onError with
  | exit => simp
  | retry | skip => simpa using plain_text _

theorem plain_keywords (c : Context) :
    ∀ k ∈ Context.argumentExprs s ++ c.optionExprs s ++ [c.placeExpr s], Plain free k.2 := by
  simp only [List.forall_mem_append]
  exact ⟨⟨plain_arguments known s reads, plain_options s c⟩, by simpa using plain_place s c⟩

end

end Flowstep.Code
