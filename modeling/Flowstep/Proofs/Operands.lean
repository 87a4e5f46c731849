import Flowstep.Proofs.DoubleText
import Flowstep.Proofs.Uses
import Flowstep.Proofs.Wording

/-!
The code of declared values, of calls and of what they are bound to spells the expressions that they stand for.
-/
namespace Flowstep.Code

open Flowstep.Flow (Fragment Input Step Variable ParamError)
open Script (Expr Spells Denotes isIdentifier pathExpr IsWord)

variable {floor : Nat}

theorem spells_none : Spells floor 7 "None" (.lit .none) :=
  Script.spells_constant (by decide) (Script.Parser.atom_literal rfl)

theorem spells_true : Spells floor 7 "True" (.lit (.bool true)) :=
  Script.spells_constant (by decide) (Script.Parser.atom_literal rfl)

theorem spells_false : Spells floor 7 "False" (.lit (.bool false)) :=
  Script.spells_constant (by decide) (Script.Parser.atom_literal rfl)

theorem spells_flag (b : Bool) : Spells floor 7 (truthWord b) (.lit (.bool b)) := by
  cases b
  · exact spells_false
  · exact spells_true

mutual

theorem spells_literal (floor : Nat) : ∀ j : Json, readable j → Spells floor 6 (literal j) (literalExpr j)
  | .null, _ => Script.spells_below spells_none (by decide) (by decide)
  | .bool b, _ => Script.spells_below (spells_flag b) (by decide) (by decide)
  | .int n, reads => by
    simp only [readable, Bool.and_eq_true, decide_eq_true_eq] at reads
    exact Script.spells_int reads.1 reads.2
  | .float x, finite => Script.spells_float finite
  | .str s, _ => Script.spells_below (Script.spells_quote s) (by decide) (by decide)
  | .arr items, reads => by
    obtain ⟨parts, texts, exprs, each⟩ := spells_items (floor + 1) items reads
    rw [literal, literalExpr, ← texts, ← exprs]
    exact Script.spells_below (Script.spells_list parts each) (by decide) (by decide)
  | .obj ⟨fields⟩, reads => by
    obtain ⟨parts, texts, exprs, each⟩ := spells_fields (floor + 1) fields reads
    rw [literal, literalExpr, ← texts, ← exprs]
    exact Script.spells_below (Script.spells_dict parts each) (by decide) (by decide)

theorem spells_items (floor : Nat) : ∀ items : List Json, readableItems items →
    ∃ parts : List (String × Expr), parts.map Prod.fst = literalItems items ∧
      parts.map Prod.snd = literalExprs items ∧ ∀ p ∈ parts, Spells floor 0 p.1 p.2
  | [], _ => ⟨[], rfl, rfl, by simp⟩
  | j :: rest, reads => by
    rw [readableItems, Bool.and_eq_true] at reads
    obtain ⟨parts, texts, exprs, each⟩ := spells_items floor rest reads.2
    have first := Script.spells_below (spells_literal floor j reads.1) (by decide) (Nat.zero_le _)
    exact ⟨(literal j, literalExpr j) :: parts, by simp [texts, literalItems], by simp [exprs, literalExprs],
      List.forall_mem_cons.mpr ⟨first, each⟩⟩

theorem spells_fields (floor : Nat) : ∀ fields : List (String × Json), readableFields fields →
    ∃ parts : List ((String × Expr) × String × Expr), parts.map (fun p => p.1.1 ++ ": " ++ p.2.1) = literalFields fields ∧
      parts.map (fun p => (p.1.2, p.2.2)) = literalEntries fields ∧
      ∀ p ∈ parts, Spells floor 0 p.1.1 p.1.2 ∧ Spells floor 0 p.2.1 p.2.2
  | [], _ => ⟨[], rfl, rfl, by simp⟩
  | (k, j) :: rest, reads => by
    rw [readableFields, Bool.and_eq_true] at reads
    obtain ⟨parts, texts, exprs, each⟩ := spells_fields floor rest reads.2
    have value := Script.spells_below (spells_literal floor j reads.1) (by decide) (Nat.zero_le _)
    have key : Spells floor 0 (quote k) (textExpr k) :=
      Script.spells_loose (Script.spells_quote k)
    exact ⟨((quote k, textExpr k), literal j, literalExpr j) :: parts, by simp [texts, literalFields],
      by simp [exprs, literalEntries], List.forall_mem_cons.mpr ⟨⟨key, value⟩, each⟩⟩

end

variable (name : String)

theorem spells_global : Spells floor 7 (globalRef name) (globalExpr name) := by
  have key : Spells (floor + 1) 0 (quote name) (textExpr name) :=
    Script.spells_loose (Script.spells_quote name)
  have entry := Script.spells_index (Script.spells_word "gv" (by decide)) key
  exact entry

theorem spells_piece {f : Fragment} (named : namedFragment f) (reads : f.tag.needsEvaluation = false → readable f.data) :
    Spells floor 6 (Operand.piece f) (pieceExpr f) := by
  obtain ⟨tag, data⟩ := f
  cases tag with
  | text | other | element => exact spells_literal floor data (reads rfl)
  | globalVariable => exact Script.spells_below (spells_global _) (by decide) (by decide)
  | flowVariable | parameter => exact Script.spells_below (Script.spells_word _ named) (by decide) (by decide)
  | expression => cases named

theorem known_forall {p : Json → Prop} {fragments : List Fragment} :
    (∀ j ∈ knownData fragments, p j) ↔ ∀ f ∈ fragments, f.tag.needsEvaluation = false → p f.data := by
  simp only [knownData, List.forall_mem_map, List.mem_filter, Bool.not_eq_true', and_imp]

theorem spells_function (valid : isIdentifier name) (parts : List (String × Expr))
    (each : ∀ p ∈ parts, Spells (floor + 1) 0 p.1 p.2) :
    Spells floor 7 (name ++ "(" ++ Text.joinWith ", " (parts.map Prod.fst) ++ ")") (callOf name (parts.map Prod.snd)) := by
  simpa [callOf] using Script.spells_call (Script.spells_word name valid) parts [] each (by simp)

theorem spells_wrapped {code : String} {e : Expr} (valid : isIdentifier name) (spells : Spells (floor + 1) 0 code e) :
    Spells floor 7 (name ++ "(" ++ code ++ ")") (callOf name [e]) := by
  simpa [Text.joinWith] using spells_function name valid [(code, e)] (by simpa using spells)

theorem spells_joined {f : Fragment} {rest : List Fragment} (named : ∀ g ∈ f :: rest, namedFragment g)
    (reads : ∀ j ∈ knownData (f :: rest), readable j) :
    Spells floor 4 (Operand.joined (f :: rest))
      ((rest.map fun g => callOf "str" [pieceExpr g]).foldl (.bin .add) (callOf "str" [pieceExpr f])) := by
  have each : ∀ p ∈ (f :: rest).map (fun g => ("str(" ++ Operand.piece g ++ ")", callOf "str" [pieceExpr g])),
      Spells floor 5 p.1 p.2 := by
    intro p member
    obtain ⟨g, inside, rfl⟩ := List.mem_map.mp member
    have inner : Spells (floor + 1) 0 (Operand.piece g) (pieceExpr g) :=
      Script.spells_below (spells_piece (named g inside) ((known_forall).mp reads g inside)) (by decide) (Nat.zero_le _)
    exact Script.spells_below (spells_wrapped "str" (by decide) inner) (by decide) (by decide)
  have sum := Script.spells_sum each
  rw [List.map_cons, List.map_map, List.map_map] at sum
  exact sum

theorem spells_operand {fragments : List Fragment} (named : ∀ f ∈ fragments, namedFragment f)
    (reads : ∀ j ∈ operandLiterals fragments, readable j) :
    Spells floor 0 (Operand.ofFragments fragments).code (operandExpr fragments) := by
  have whole (s : String) : Spells floor 0 (literal (.str s)) (textExpr s) :=
    Script.spells_loose (Script.spells_quote s)
  unfold operandLiterals at reads
  unfold Operand.ofFragments operandExpr
  split
  · rename_i needed
    rw [if_pos needed] at reads
    match fragments with
    | [] => cases needed
    | [f] =>
      exact Script.spells_below (spells_piece (named f (by simp)) ((known_forall).mp reads f (by simp))) (by decide) (Nat.zero_le _)
    | f :: g :: rest => exact Script.spells_below (spells_joined named reads) (by decide) (Nat.zero_le _)
  · rename_i known
    rw [if_neg known] at reads
    match fragments with
    | [] => exact whole _
    | [f] => exact Script.spells_below (spells_literal floor f.data (reads f.data (by simp))) (by decide) (Nat.zero_le _)
    | f :: g :: rest => exact whole _

theorem held_argument {key : String} {i : Input} {a : Argument} (made : Argument.ofInput key i = .ok a)
    (parsed : i.parse = some "json_str") : a = ⟨i.name, .literal (heldValue i), none⟩ := by
  unfold Argument.ofInput at made
  rw [if_pos parsed] at made
  unfold heldValue
  dsimp only at made
  split at made
  · rename_i blank
    cases made
    rw [if_pos blank]
  · rename_i filled
    rw [if_neg filled]
    split at made
    · rename_i j read
      cases made
      rw [read]
      rfl
    · cases made

variable (key : String)

theorem spells_input {i : Input} {a : Argument} (made : Argument.ofInput key i = .ok a) (reads : readableInput i) :
    a.name = i.name ∧ Spells floor 0 a.code (inputExpr key i) := by
  rw [readableInput, namedInput, Bool.and_eq_true, Bool.and_eq_true, List.all_eq_true] at reads
  obtain ⟨⟨_, named⟩, reads⟩ := reads
  unfold inputLiterals at reads
  unfold inputExpr
  by_cases parsed : i.parse = some "json_str"
  · rw [if_pos parsed] at reads ⊢
    obtain rfl := held_argument made parsed
    exact ⟨rfl, Script.spells_below (spells_literal floor _ (reads _ (by simp))) (by decide) (Nat.zero_le _)⟩
  · unfold Argument.ofInput at made
    rw [if_neg parsed] at made reads ⊢
    cases made
    simp only [parsed, decide_false, Bool.false_or, List.all_eq_true] at named
    refine ⟨rfl, ?_⟩
    cases Argument.referenceOf key i with
    | none => exact spells_operand named reads
    | some r =>
      have word : isIdentifier r.word := by cases r <;> decide
      exact Script.spells_loose (spells_wrapped r.word word (spells_operand named reads))

def Given (texts : List String) (values : List (String × Expr)) : Prop :=
  ∃ parts : List (String × String × Expr), texts = parts.map (fun p => p.1 ++ "=" ++ p.2.1) ∧
    values = parts.map (fun p => (p.1, p.2.2)) ∧ ∀ p ∈ parts, IsWord p.1.toList ∧ Denotes 1 p.2.1 p.2.2

theorem given_nil : Given [] [] := ⟨[], rfl, rfl, by simp⟩

theorem given_append {front back : List String} {first second : List (String × Expr)} (given : Given front first)
    (others : Given back second) : Given (front ++ back) (first ++ second) := by
  obtain ⟨parts, rfl, rfl, each⟩ := given
  obtain ⟨more, rfl, rfl, all⟩ := others
  exact ⟨parts ++ more, by simp, by simp, List.forall_mem_append.mpr ⟨each, all⟩⟩

theorem given_single {code : String} {e : Expr} (word : IsWord name.toList) (spells : Spells 1 7 code e) :
    Given [name ++ "=" ++ code] [(name, e)] :=
  ⟨[(name, code, e)], rfl, rfl, by simpa using ⟨word, Script.spells_denotes spells (by decide)⟩⟩

theorem given_if {wanted : Prop} [Decidable wanted] {text : String} {value : String × Expr}
    (given : wanted → Given [text] [value]) :
    Given (if wanted then [text] else []) (if wanted then [value] else []) := by
  by_cases holds : wanted
  · rw [if_pos holds, if_pos holds]
    exact given holds
  · rw [if_neg holds, if_neg holds]
    exact given_nil

def ReadableTime (x : Float) : Prop := 0 < x → ∀ floor, Spells floor 7 (Decimal.plain.write x) (secondsExpr x)

namespace Context

variable (c : Context)

theorem options_given {s : Step} (before : ReadableTime s.options.delayBefore) (after : ReadableTime s.options.delayAfter) :
    Given (c.optionArguments s) (c.optionExprs s) := by
  refine given_append (given_append (given_append (given_append ?_ ?_) ?_) ?_) ?_
  · cases s.options.onError with
    | exit => exact given_nil
    | retry => exact given_single "__on_error__" ⟨_, _, rfl, by decide⟩ (Script.spells_quote "exit")
    | skip => exact given_single "__on_error__" ⟨_, _, rfl, by decide⟩ (Script.spells_quote "skip")
  · exact given_if fun positive =>
      given_single "__delay_before__" ⟨_, _, rfl, by decide⟩ (before positive 1)
  · exact given_if fun positive =>
      given_single "__delay_after__" ⟨_, _, rfl, by decide⟩ (after positive 1)
  · exact given_if fun _ => given_single "__print_result__" ⟨_, _, rfl, by decide⟩ spells_true
  · exact given_if fun _ => given_single "__in_retry__" ⟨_, _, rfl, by decide⟩ spells_true

theorem place_given (s : Step) (fits : s.line < 2 ^ 63) : Given [c.place s] [c.placeExpr s] := by
  have number : Spells 2 0 (toString s.line) (numberExpr s.line) :=
    Script.spells_loose (Script.spells_nat s.line (by omega))
  have unit : Spells 2 0 (quote c.unit) (textExpr c.unit) :=
    Script.spells_loose (Script.spells_quote c.unit)
  have listed := Script.spells_list [(toString s.line, numberExpr s.line), (quote c.unit, textExpr c.unit)]
    (by simpa using ⟨number, unit⟩)
  have text : c.place s =
      "__info__" ++ "=" ++ ("[" ++ Text.joinWith ", " [toString s.line, quote c.unit] ++ "]") := by
    rfl
  rw [text]
  exact given_single "__info__" ⟨_, _, rfl, by decide⟩ listed

theorem key_path_join : Text.joinWith "." (keyPath key) = key := by
  rw [← String.toList_inj, Text.join_with_chars, keyPath, List.map_map]
  have same : (String.toList ∘ String.ofList : List Char → List Char) = id := by
    funext cs
    exact String.toList_ofList
  rw [same, List.map_id]
  exact List.intercalate_splitOn '.'

theorem key_path_filled : keyPath key ≠ [] := by
  simp [keyPath]

theorem spells_key_call {texts : List String} {values : List (String × Expr)} (valid : loadableKey key)
    (given : Given texts values) :
    Spells 0 7 (key ++ "(" ++ Text.joinWith ", " texts ++ ")") (.call (pathExpr (keyPath key)) [] values) := by
  obtain ⟨parts, rfl, rfl, each⟩ := given
  have called := Script.spells_call (Script.spells_path _ (key_path_filled key) (List.all_eq_true.mp valid)) [] parts (by simp) each
  rwa [key_path_join] at called

theorem arguments_given (s : Step) (given : List String) (made : arguments s = .ok given)
    (reads : ∀ i ∈ s.shownInputs, readableInput i) : Given given (argumentExprs s) := by
  unfold arguments at made
  unfold argumentExprs
  generalize s.shownInputs = inputs at made reads
  induction inputs generalizing given with
  | nil =>
    cases made
    exact given_nil
  | cons i rest ih =>
    rw [List.mapM_cons] at made
    obtain ⟨text, textMade, made⟩ := bind_ok made
    obtain ⟨others, othersMade, made⟩ := bind_ok made
    cases made
    obtain ⟨a, read, textMade⟩ := map_ok textMade
    have readsFirst := reads i List.mem_cons_self
    obtain ⟨named, spelled⟩ := spells_input s.key read readsFirst
    rw [readableInput, namedInput, Bool.and_eq_true, Bool.and_eq_true] at readsFirst
    have word := (Script.identifier_word readsFirst.1.1).1
    have first : Given [text] [(i.name, inputExpr s.key i)] := by
      rw [← textMade, Argument.text, named]
      exact ⟨[(i.name, a.code, _)], rfl, rfl, by simpa using ⟨word, Script.spells_denotes spelled (by decide)⟩⟩
    exact given_append first (ih others othersMade fun j member => reads j (List.mem_cons_of_mem _ member))

theorem spells_call (s : Step) (texts : List String) (values : List (String × Expr)) (call : String)
    (argued : arguments s = .ok texts) (made : c.call s = .ok call) (valid : loadableKey s.key) (given : Given texts values)
    (before : ReadableTime s.options.delayBefore) (after : ReadableTime s.options.delayAfter) (fits : s.line < 2 ^ 63) :
    Spells 0 7 call (c.callWith s values) := by
  obtain ⟨found, argued', made⟩ := bind_ok made
  obtain rfl := Except.ok.inj (argued.symm.trans argued')
  cases made
  exact spells_key_call s.key valid (given_append (given_append given (options_given c before after))
    (place_given c s fits))

theorem spells_comparison (s : Step) (test : String) (made : c.comparison s = .ok test)
    (reads : ∀ i ∈ s.shownInputs, readableInput i) (fits : s.line < 2 ^ 63) :
    Spells 0 7 test (c.comparisonExpr s) := by
  obtain ⟨texts, argued, made⟩ := bind_ok made
  cases made
  exact spells_key_call "consequence" (by decide) (given_append (arguments_given s texts argued reads)
    (place_given c s fits))

theorem binds_target {name : String} (valid : isIdentifier name) :
    Script.Binds (targetOf c.globals name) (c.targetAt name) := by
  unfold targetOf targetAt
  split
  · exact spells_global name
  · exact Script.binds_name name valid

end Context

end Flowstep.Code
