import Flowstep.Proofs.Operands

/-!
The loop around a call that may be made again is read as the statements that it stands for.
-/
namespace Flowstep.Code

open Flowstep.Flow (Step)
open Script (Expr Stmt StmtKind Spells isIdentifier Written Ends)

theorem join_with_first (sep first : String) (parts : List String) :
    Text.joinWith sep (first :: parts) = first ++ String.join (parts.map (sep ++ ·)) := by
  change parts.foldl (fun t q => t ++ sep ++ q) first = _
  induction parts generalizing first with
  | nil => simp
  | cons part parts ih =>
    rw [List.foldl_cons, ih, List.map_cons, String.join_cons]
    simp only [String.append_assoc]

theorem numbered_identifier (front : String) (n : Nat) (starts : isIdentifier front) (marked : front.toList.head? = some '_') :
    isIdentifier (front ++ toString n ++ "__") := by
  obtain ⟨⟨c, cs, split, startsC, continues⟩, _, _⟩ := Script.identifier_word starts
  have chars : (front ++ toString n ++ "__").toList = c :: (cs ++ Nat.toDigits 10 n ++ ['_', '_']) := by
    rw [String.toList_append, String.toList_append, split, Nat.toString_eq_repr, Nat.toList_repr]
    rfl
  have underscore : c = '_' := by simpa [split] using marked
  have free : ∀ w ∈ Script.reservedWords ++ Script.Parser.constants, w.toList.head? ≠ some '_' := by decide
  have other : front ++ toString n ++ "__" ∉ Script.reservedWords ++ Script.Parser.constants := by
    intro listed
    exact free _ listed (by rw [chars, underscore]; rfl)
  have digits : ∀ d ∈ Nat.toDigits 10 n, Script.continuesName d :=
    fun d member => Script.digit_continues (Script.digit_chars n d member)
  have tail : Script.continuesName '_' := by decide
  unfold isIdentifier Script.isReserved
  rw [chars]
  simp only [startsC, List.all_append, List.all_cons, tail, List.all_eq_true.mpr continues,
    List.all_eq_true.mpr digits]
  simpa using other

namespace Context

variable (c : Context) (s : Step)

theorem spells_record (status : String) (parts : List ((String × Expr) × String × Expr))
    (plain : quote status = "\"" ++ status ++ "\"") (fits : s.line < 2 ^ 63)
    (each : ∀ p ∈ parts, Spells 2 0 p.1.1 p.1.2 ∧ Spells 2 0 p.2.1 p.2.2) :
    Spells 1 7 (c.retryRecord s status (String.join (parts.map fun p => ", " ++ (p.1.1 ++ ": " ++ p.2.1))))
      (c.recordExpr s status (parts.map fun p => (p.1.2, p.2.2))) := by
  have quoted (text : String) : Spells 2 0 (quote text) (textExpr text) :=
    Script.spells_loose (Script.spells_quote text)
  have number : Spells 2 0 (toString s.line) (numberExpr s.line) :=
    Script.spells_loose (Script.spells_nat s.line (by omega))
  have whole := Script.spells_dict
    ([((quote "unit", textExpr "unit"), quote c.unit, textExpr c.unit),
      ((quote "line", textExpr "line"), toString s.line, numberExpr s.line),
      ((quote "key", textExpr "key"), quote s.key, textExpr s.key),
      ((quote "status", textExpr "status"), quote status, textExpr status)] ++ parts) (by
      refine List.forall_mem_append.mpr ⟨?_, each⟩
      simp only [List.forall_mem_cons, List.not_mem_nil, false_implies, implies_true, and_true]
      exact ⟨⟨quoted "unit", quoted c.unit⟩, ⟨quoted "line", number⟩, ⟨quoted "key", quoted s.key⟩, quoted "status",
        quoted status⟩)
  have text : c.retryRecord s status (String.join (parts.map fun p => ", " ++ (p.1.1 ++ ": " ++ p.2.1))) =
      "\x7b" ++ Text.joinWith ", " ([quote "unit" ++ ": " ++ quote c.unit, quote "line" ++ ": " ++ toString s.line,
        quote "key" ++ ": " ++ quote s.key, quote "status" ++ ": " ++ quote status] ++
        parts.map fun p => p.1.1 ++ ": " ++ p.2.1) ++ "\x7d" := by
    have unit : "\x7b\"unit\": " = "\x7b" ++ (quote "unit" ++ ": ") := by decide
    have line : ", \"line\": " = ", " ++ (quote "line" ++ ": ") := by decide
    have key : ", \"key\": " = ", " ++ (quote "key" ++ ": ") := by decide
    have state : ", \"status\": \"" = ", " ++ (quote "status" ++ (": " ++ "\"")) := by decide
    unfold retryRecord
    rw [plain, List.cons_append, join_with_first, unit, line, key, state]
    simp only [List.cons_append, List.nil_append, List.map_cons, String.join_cons, List.map_map, String.append_assoc,
      Function.comp_def]
  rw [text]
  exact whole

theorem written_report (level line : Nat) (kind record : String) (e : Expr) (valid : isIdentifier kind)
    (plain : Text.Plain record) (spells : Spells 1 7 record e) :
    Written level [⟨level, "report." ++ kind ++ "(" ++ record ++ ")", none⟩] line (line + 1)
      [⟨line, .expr (reportExpr kind e)⟩] := by
  have path : Spells 0 7 _ _ := Script.spells_path ["report", kind] (by simp) (by simpa using ⟨by decide, valid⟩)
  have called := Script.spells_call path [(record, e)] [] (by simpa using Script.spells_loose spells)
    (by simp)
  have flat : Text.Plain ("report." ++ kind ++ "(" ++ record ++ ")") := by
    simp only [Text.plain_append, Script.identifier_plain kind valid, plain]
    decide
  exact Script.written_expr level none (Script.ends_plain line _ flat)
    (Script.spells_loose called)

theorem counter_identifier : isIdentifier (counterName s) :=
  numbered_identifier "__retry_count_" s.line (by decide) (by decide)

theorem error_identifier : isIdentifier (errorName s) :=
  numbered_identifier "__e_" s.line (by decide) (by decide)

theorem quoted_spells (text : String) : Spells 2 0 (quote text) (textExpr text) :=
  Script.spells_loose (Script.spells_quote text)

theorem spells_failure_text : Spells 2 0 ("str(" ++ errorName s ++ ")") (callOf "str" [.name (errorName s)]) := by
  have name : Spells 3 0 (errorName s) (.name (errorName s)) :=
    Script.spells_loose (Script.spells_word _ (error_identifier s))
  exact Script.spells_loose (spells_wrapped "str" (by decide) name)

theorem spells_error_record (fits : s.line < 2 ^ 63) :
    Spells 1 7 (c.retryRecord s "error" (", \"error\": str(" ++ errorName s ++ ")"))
      (c.recordExpr s "error" [failureExpr s]) := by
  have spells := c.spells_record s "error"
    [((quote "error", textExpr "error"), "str(" ++ errorName s ++ ")", callOf "str" [.name (errorName s)])] (by decide) fits
    (by simpa using ⟨quoted_spells "error", spells_failure_text s⟩)
  exact spells

theorem spells_retry_record (fits : s.line < 2 ^ 63) :
    Spells 1 7 (c.retryRecord s "retry" (", \"remaining\": " ++ counterName s ++ ", \"error\": str(" ++ errorName s ++ ")"))
      (c.recordExpr s "retry" [(textExpr "remaining", .name (counterName s)), failureExpr s]) := by
  have counter : Spells 2 0 (counterName s) (.name (counterName s)) :=
    Script.spells_loose (Script.spells_word _ (counter_identifier s))
  have spells := c.spells_record s "retry"
    [((quote "remaining", textExpr "remaining"), counterName s, .name (counterName s)),
      ((quote "error", textExpr "error"), "str(" ++ errorName s ++ ")", callOf "str" [.name (errorName s)])] (by decide) fits
    (by simpa using ⟨⟨quoted_spells "remaining", counter⟩, quoted_spells "error", spells_failure_text s⟩)
  have left : ", \"remaining\": " = ", " ++ (quote "remaining" ++ ": ") := by decide
  rw [List.map_cons, String.join_cons] at spells
  rw [left]
  simp only [String.append_assoc] at spells ⊢
  exact spells

theorem failure_entry_plain : Text.Plain (", \"error\": str(" ++ errorName s ++ ")") := by
  simp only [Text.plain_append, Script.identifier_plain _ (error_identifier s)]
  decide

theorem written_failure (level line : Nat) (record : String) (e : Expr)
    (plain : Text.Plain record) (spells : Spells 1 7 record e) :
    Written level ([⟨level, counterName s ++ " -= " ++ "1", none⟩] ++
      (⟨level, "if " ++ (counterName s ++ " < " ++ "0") ++ ":", none⟩ ::
        ([⟨level + 1, "report." ++ "error" ++ "(" ++ record ++ ")", none⟩] ++ [⟨level + 1, "raise", none⟩]) ++ []))
      line (line + 4)
      [⟨line, .augAssign (.name (counterName s)) .sub (numberExpr 1)⟩,
        ⟨line + 1, .ifChain [⟨line + 1, .cmp .lt (.name (counterName s)) (numberExpr 0),
          [⟨line + 2, .expr (reportExpr "error" e)⟩, ⟨line + 3, .raise none⟩]⟩] none⟩] := by
  have counterPlain := Script.identifier_plain _ (counter_identifier s)
  have one : Spells 0 0 "1" (numberExpr 1) :=
    Script.spells_loose (Script.spells_nat 1 (by decide))
  have zero : Spells 0 4 "0" (numberExpr 0) :=
    Script.spells_below (Script.spells_nat 0 (by decide)) (by decide) (by decide)
  have counter : Spells 0 4 (counterName s) (.name (counterName s)) :=
    Script.spells_below (Script.spells_word _ (counter_identifier s)) (by decide) (by decide)
  have test := Script.spells_below (Script.spells_compare .lt counter zero) (by decide) (Nat.zero_le _)
  have decremented : Text.Plain (counterName s ++ " -= " ++ "1") := by
    simp only [Text.plain_append, counterPlain]
    decide
  have tested : Text.Plain ("if " ++ (counterName s ++ " < " ++ "0") ++ ":") := by
    simp only [Text.plain_append, counterPlain]
    decide
  have lowers := Script.written_decrement level none
    (Script.ends_plain line _ decremented) (counter_identifier s) (Script.spells_denotes one (by decide))
  have reports := written_report (level + 1) (line + 2) "error" record e (by decide) plain spells
  have raises := Script.written_word (level + 1) (line + 3) "raise" none (.raise none)
    (by simp [Script.Parser.wordStatements])
  have ends := Script.written_append (level + 1) (line + 2) (line + 3) (line + 4) _ _ _ _ reports raises
  have chooses := Script.written_if none test
    (Script.ends_plain (line + 1) _ tested) (by simp) ends (Script.written_no_arms level (line + 4))
  exact Script.written_append level line (line + 1) (line + 4) _ _ _ _ lowers chooses

theorem written_pause (level line : Nat) (x : Float) (readable : ReadableTime x) :
    Written level (if 0 < x then [⟨level, "sleep(" ++ Decimal.plain.write x ++ ")", none⟩] else []) line
      (line + if 0 < x then 1 else 0)
      (if 0 < x then [⟨line, .expr (callOf "sleep" [secondsExpr x])⟩] else []) := by
  by_cases positive : 0 < x
  · simp only [if_pos positive]
    have seconds := Script.spells_loose (readable positive 1)
    have sleeps := Script.spells_loose (spells_wrapped "sleep" (by decide) seconds)
    have plain : Text.Plain ("sleep" ++ "(" ++ Decimal.plain.write x ++ ")") := by
      simp only [Text.plain_append, Decimal.write_plain]
      decide
    exact Script.written_expr level none (Script.ends_plain line _ plain) sleeps
  · simp only [if_neg positive]
    exact Script.written_nil level line

theorem written_retry (indent line after : Nat) (statement : String) (attempt : StmtKind)
    (fits : s.line < 2 ^ 63) (counted : s.options.retryCount < 2 ^ 63) (readable : ReadableTime s.options.retryInterval)
    (made : Written (indent + 2) [⟨indent + 2, statement, some s.line⟩] (line + 4) after [⟨line + 4, attempt⟩]) :
    Written indent (c.retryLines s indent statement) line (after + 7 + if 0 < s.options.retryInterval then 1 else 0)
      (c.retryStmts s line after attempt) := by
  have counterPlain := Script.identifier_plain _ (counter_identifier s)
  have assigned : Text.Plain (counterName s ++ " = " ++ toString s.options.retryCount) := by
    simp only [Text.plain_append, counterPlain, Decimal.nat_plain]
    decide
  have remaining : Text.Plain (", \"remaining\": " ++ counterName s ++ ", \"error\": str(" ++ errorName s ++ ")") := by
    have failed := failure_entry_plain s
    simp only [Text.plain_append] at failed ⊢
    exact ⟨⟨⟨⟨by decide, counterPlain⟩, failed.1.1⟩, failed.1.2⟩, failed.2⟩
  have starts := written_report indent line "info" _ _ (by decide)
    ((retry_record_plain c s "" (by decide)).mpr (by decide)) (c.spells_record s "start" [] (by decide) fits (by simp))
  have count : Spells 0 0 (toString s.options.retryCount) (numberExpr s.options.retryCount) :=
    Script.spells_loose (Script.spells_nat _ (by omega))
  have counts := Script.written_assign_one indent (line + 1) (line + 2) (counterName s) (.name (counterName s)) _ none _
    (Script.ends_plain (line + 1) _ assigned) (Script.binds_name _ (counter_identifier s))
    (Script.spells_denotes count (by decide))
  have stops := Script.written_word (indent + 2) after "break" none .break (by simp [Script.Parser.wordStatements])
  have tries := Script.written_append (indent + 2) (line + 4) after (after + 1) _ _ _ _ made stops
  have fails := written_failure s (indent + 2) (after + 2) _ _
    ((retry_record_plain c s _ (by decide)).mpr (failure_entry_plain s)) (spells_error_record c s fits)
  have warns := written_report (indent + 2) (after + 6) "warn" _ _ (by decide)
    ((retry_record_plain c s _ (by decide)).mpr remaining) (spells_retry_record c s fits)
  have pauses := written_pause (indent + 2) (after + 7) _ readable
  have lasts := Script.written_append (indent + 2) (after + 6) (after + 7) _ _ _ _ _ warns pauses
  have handles := Script.written_append (indent + 2) (after + 2) (after + 6) _ _ _ _ _ fails lasts
  have caught := Script.written_except (indent + 1) (after + 1) _ (errorName s) none _ _ (error_identifier s) (by simp)
    handles
  have attempts := Script.written_try (indent + 1) (line + 3) (after + 1) _ _ none _ _ [] _ _ none (by simp) tries caught
    (Script.written_no_final (indent + 1) _) rfl
  have repeats := Script.written_while none
    (Script.spells_loose spells_true) (Script.ends_plain (line + 2) _ (by decide)) (by simp)
    attempts
  have whole := Script.written_append indent line (line + 1) _ _ _ _ _ starts
    (Script.written_append indent (line + 1) (line + 2) _ _ _ _ _ counts repeats)
  have counterText : "__retry_count_" ++ toString s.line ++ "__" = counterName s := rfl
  have errorText : "__e_" ++ toString s.line ++ "__" = errorName s := rfl
  unfold retryLines
  rw [counterText, errorText]
  simp only [List.append_nil, String.append_assoc] at whole ⊢
  exact whole

end Context

end Flowstep.Code
