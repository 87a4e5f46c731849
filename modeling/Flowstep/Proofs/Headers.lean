import Flowstep.Proofs.Attempts
import Flowstep.Proofs.Seconds

/-!
The lines of one step, and the header that a step puts before a block, are read as the statements that the step
stands for.
-/
namespace Flowstep.Code

open Text (Plain)
open Flowstep.Flow (Fragment Input Output Step Gate LoopKind)
open Script (Expr Stmt StmtKind Target Arm Suite Spells Binds isIdentifier Written WrittenArms)

theorem raw_fragments_plain {fragments : List Fragment} (named : ∀ f ∈ fragments, namedFragment f) :
    AllPlain (rawFragments fragments) := by
  intro text member
  obtain ⟨f, kept, rfl⟩ := List.mem_map.mp member
  obtain ⟨inside, code⟩ := List.mem_filter.mp kept
  have word := named f inside
  obtain ⟨tag, data⟩ := f
  cases tag with
  | flowVariable | parameter => exact Script.identifier_plain _ word
  | expression => cases word
  | _ => cases code

theorem raw_input_plain {i : Input} (named : namedInput i) : AllPlain (rawInput i) := by
  rw [namedInput, Bool.and_eq_true] at named
  unfold rawInput
  split
  · exact all_plain_nil.mpr trivial
  · rename_i plain
    simp only [plain, decide_false, Bool.false_or, List.all_eq_true] at named
    exact raw_fragments_plain named.2

theorem raw_arguments_plain (s : Step) (named : ∀ i ∈ s.shownInputs, namedInput i) : AllPlain (rawArguments s) := by
  intro text member
  obtain ⟨i, shown, inside⟩ := List.mem_flatMap.mp member
  have word := named i shown
  rcases List.mem_cons.mp inside with rfl | inside
  · rw [namedInput, Bool.and_eq_true] at word
    exact Script.identifier_plain _ word.1
  · exact raw_input_plain word text inside

variable {s : Step}

theorem raw_operand_plain {name : String} {position : Nat} (named : ∀ i ∈ (Use.chosen s name position).toList, namedInput i) :
    AllPlain (rawOperand s name position) := by
  unfold rawOperand
  cases chosen : (s.input? name).or s.shownInputs[position]? with
  | none => exact all_plain_nil.mpr trivial
  | some i => exact raw_input_plain (named i (Option.mem_toList.mpr chosen))

theorem raw_targets_plain (c : Context) {outputs : List Output} (valid : ∀ o ∈ outputs, isIdentifier o.target) :
    AllPlain (rawTargets c outputs) := by
  intro text member
  obtain ⟨o, inside, rfl⟩ := List.mem_map.mp (List.mem_of_mem_filter member)
  exact Script.identifier_plain _ (valid o inside)

theorem key_plain {key : String} (valid : loadableKey key) : Plain key := by
  rw [← Context.key_path_join key, Text.plain_join_with (by decide)]
  exact fun part member => Script.identifier_plain part (List.all_eq_true.mp valid part member)

theorem raw_call_plain {s : Step} (named : (Use.call s).Named) : AllPlain (rawCall s) :=
  (all_plain_cons _ _).mpr ⟨key_plain (named.key rfl), raw_arguments_plain s named.inputs⟩

theorem raw_loop_plain (c : Context) {kind : LoopKind} (named : (Use.loop kind s).Named) :
    AllPlain (rawLoop c kind s) := by
  have outputs := named.outputs
  rw [Use.loop_step] at outputs
  have bound (n : Nat) : AllPlain (rawTargets c (s.outputs.take n)) :=
    raw_targets_plain c fun o member => outputs o (List.mem_of_mem_take member)
  have inputs := named.inputs
  cases kind with
  | «while» => exact raw_arguments_plain s inputs
  | call => exact (all_plain_append _ _).mpr ⟨raw_targets_plain c outputs, raw_call_plain named⟩
  | range =>
    simp only [Use.loop, List.forall_mem_append] at inputs
    simp only [rawLoop, all_plain_append]
    exact ⟨⟨⟨bound 1, raw_operand_plain inputs.1.1⟩, raw_operand_plain inputs.1.2⟩,
      raw_operand_plain inputs.2⟩
  | list => exact (all_plain_append _ _).mpr ⟨bound 2, raw_operand_plain inputs⟩
  | map =>
    refine (all_plain_append _ _).mpr ⟨?_, raw_operand_plain inputs⟩
    split
    · exact bound 2
    · exact all_plain_nil.mpr trivial

theorem readable_time {x : Float} (fits : readableTime x) : ReadableTime x := by
  intro positive
  rw [readableTime, Bool.or_eq_true, Bool.not_eq_true', decide_eq_false_iff_not, decide_eq_true_eq] at fits
  exact (seconds_number positive (fits.resolve_left (not_not.mpr positive))).1

namespace Context

def targetPairs (c : Context) (s : Step) : List (String × Target) :=
  s.outputs.map fun o => (targetOf c.globals o.target, c.targetAt o.target)

theorem pair_texts (c : Context) (s : Step) : (c.targetPairs s).map Prod.fst = c.targets s := by
  simp [targetPairs, targets]

theorem pair_targets (c : Context) (s : Step) : (c.targetPairs s).map Prod.snd = c.boundTo s := by
  simp [targetPairs, boundTo]

variable {s : Step}

theorem pairs_bind (c : Context) (outputs : ∀ o ∈ s.outputs, isIdentifier o.target) :
    ∀ p ∈ c.targetPairs s, Binds p.1 p.2 := by
  intro p member
  obtain ⟨o, inside, rfl⟩ := List.mem_map.mp member
  exact binds_target c (outputs o inside)

variable {c : Context} {first : String × Target} {others : List (String × Target)}

theorem assigned_pairs (pairs : c.targetPairs s = first :: others) :
    s.outputs.isEmpty = false ∧ Text.joinWith ", " (c.targets s) = Text.joinWith ", " ((first :: others).map Prod.fst) ∧
      c.boundTo s = (first :: others).map Prod.snd := by
  refine ⟨?_, by rw [← pairs, pair_texts], by rw [← pairs, pair_targets]⟩
  cases outputs : s.outputs with
  | nil => simp [targetPairs, outputs] at pairs
  | cons o rest => rfl

theorem spells_step_call {c : Context} {s : Step} {call : String} (made : c.call s = .ok call)
    (reads : (Use.call s).Readable c) : Spells 0 7 call (c.callExpr s) := by
  obtain ⟨texts, argued, _⟩ := bind_ok made
  exact spells_call c s texts _ call argued made (reads.key rfl)
    (arguments_given s texts argued (Use.readable_inputs reads)) (readable_time (reads.before rfl))
    (readable_time (reads.after rfl)) reads.line

def bindingKind (c : Context) (s : Step) (e : Expr) : StmtKind :=
  if s.outputs.isEmpty then .expr e else .assign (c.boundTo s) e

variable {code : String} {e : Expr} {origin : Option Nat}

theorem written_binding {c : Context} {line next : Nat} (level : Nat)
    (ends : Script.Ends line (c.assignment s ++ code) next) (outputs : ∀ o ∈ s.outputs, isIdentifier o.target)
    (spells : Spells 0 7 code e) :
    Written level [⟨level, c.assignment s ++ code, origin⟩] line next [⟨line, c.bindingKind s e⟩] := by
  unfold assignment bindingKind at *
  cases pairs : c.targetPairs s with
  | nil =>
    have missing : s.outputs.isEmpty = true := by simpa [targetPairs] using pairs
    rw [if_pos missing] at ends ⊢
    rw [if_pos missing]
    exact Script.written_expr level _ ends (Script.spells_loose spells)
  | cons first others =>
    obtain ⟨present, texts, bound⟩ := assigned_pairs pairs
    rw [if_neg (by rw [present]; decide), texts] at ends ⊢
    rw [if_neg (by rw [present]; decide), bound]
    exact Script.written_assign level line _ first others code _ _ ends (pairs ▸ pairs_bind c outputs)
      (Script.spells_denotes spells (by decide))

theorem written_statement {c : Context} {s : Step} (level line : Nat) {call : String} (made : c.call s = .ok call)
    (reads : (Use.call s).Readable c) :
    Written level [⟨level, c.assignment s ++ call, some s.line⟩] line (line + 1) [⟨line, c.callKind s⟩] := by
  have plain : Plain (c.assignment s ++ call) := by
    rw [Text.plain_append, assignment_plain, call_plain c made]
    exact ⟨raw_targets_plain c reads.outputs, raw_call_plain reads.toNamed⟩
  exact written_binding level (Script.ends_plain line _ plain) reads.outputs
    (spells_step_call made reads)

theorem retry_next (s : Step) (line : Nat) :
    line + 5 + 7 + (if 0 < s.options.retryInterval then 1 else 0) = line + retrySpan s := by
  unfold retrySpan
  omega

theorem written_call_lines (c : Context) (s : Step) (level line : Nat) (lines : List Line)
    (made : c.callLines s level = .ok lines) (reads : (Use.call s).Readable c) :
    Written level lines line (line + c.callSpan s) (c.callStmts s line) := by
  obtain ⟨call, callMade, made⟩ := bind_ok made
  unfold callSpan callStmts
  by_cases again : c.retries s
  · rw [if_pos again] at made ⊢
    rw [if_pos again]
    cases made
    rw [← retry_next]
    exact written_retry c s level line (line + 5) _ _ reads.line reads.count (readable_time (reads.interval rfl again))
      (written_statement (level + 2) (line + 4) callMade reads)
  · rw [if_neg again] at made ⊢
    rw [if_neg again]
    cases made
    exact written_statement level line callMade reads

-- A block over the result of a call. The header takes the call, or the variable that holds its result.
theorem written_header {c : Context} {s : Step} {level line next : Nat} {name : String} (header : String → String)
    {lines body : List Line} {stmts : List Stmt} (made : c.headerLines s level name header = .ok lines)
    (reads : (Use.call s).Readable c) (named : isIdentifier ("__" ++ name ++ "_"))
    (marked : ("__" ++ name ++ "_").toList.head? = some '_')
    (opens : ∀ (code : String) (origin : Option Nat), Spells 0 0 code (c.resultExpr s name) → Plain code →
      Written level (⟨level, header code, origin⟩ :: body) (line + c.beforeSpan s) next stmts) :
    Written level (lines ++ body) line next (c.beforeBlock s name line ++ stmts) := by
  obtain ⟨call, callMade, made⟩ := bind_ok made
  have spells := spells_step_call callMade reads
  have plain := (call_plain c callMade).mpr (raw_call_plain reads.toNamed)
  have identifier : isIdentifier (resultName name s) := numbered_identifier _ s.line named marked
  have resultPlain := Script.identifier_plain _ identifier
  unfold resultExpr beforeSpan at opens
  unfold beforeBlock
  by_cases again : c.retries s
  · rw [if_pos again] at made opens ⊢
    cases made
    rw [if_pos again, ← retry_next] at opens
    have assigned : Plain (resultName name s ++ " = " ++ call) := by
      simp only [Text.plain_append, resultPlain, plain]
      decide
    have attempt := Script.written_assign_one (level + 2) (line + 4) _ (resultName name s) (.name _) call (some s.line) _
      (Script.ends_plain _ _ assigned) (Script.binds_name _ identifier) (Script.spells_denotes spells (by decide))
    have before := written_retry c s level line (line + 5) _ _ reads.line reads.count
      (readable_time (reads.interval rfl again)) attempt
    have result : Spells 0 0 (resultName name s) (.name (resultName name s)) :=
      Script.spells_loose (Script.spells_word _ identifier)
    have after := opens (resultName name s) none result resultPlain
    have whole := Script.written_append level line _ next _ _ _ _ before after
    rw [List.append_assoc]
    exact whole
  · rw [if_neg again] at made opens ⊢
    cases made
    rw [if_neg again] at opens
    exact opens call (some s.line) (Script.spells_loose spells) plain

theorem plain_between (front text back : String) (first : Plain front) (middle : Plain text) (last : Plain back) :
    Plain (front ++ text ++ back) :=
  (Text.plain_append _ _).mpr ⟨(Text.plain_append _ _).mpr ⟨first, middle⟩, last⟩

theorem written_branch (c : Context) (gate : Gate) (s : Step) (level line middle next : Nat)
    (header body others : List Line) (stmts : List Stmt) (further : List Arm) (otherwise : Option Suite)
    (made : c.branchLines gate s level = .ok header) (reads : (Use.gate gate s).Readable c) (filled : body ≠ [])
    (written : Written (level + 1) body (line + c.gateSpan gate s + 1) middle stmts)
    (arms : WrittenArms level others middle next further otherwise) :
    Written level (header ++ (body ++ others)) line next (c.gateStmts gate s line ++
      [⟨line + c.gateSpan gate s,
        .ifChain (⟨line + c.gateSpan gate s, c.gateExpr gate s, stmts⟩ :: further) otherwise⟩]) := by
  have opens (code : String) (e : Expr) (origin : Option Nat) (spells : Spells 0 0 code e) (plain : Plain code) :=
    Script.written_if origin
      spells (Script.ends_plain _ _ (plain_between "if " code ":" (by decide) plain (by decide))) filled written arms
  cases gate with
  | call =>
    exact written_header _ made reads (by decide) (by decide)
      fun code origin spells plain => opens code _ origin spells plain
  | comparison =>
    obtain ⟨test, testMade, made⟩ := bind_ok made
    cases made
    have plain := (comparison_plain c s test testMade).mpr (raw_arguments_plain s reads.inputs)
    have spells := spells_comparison c s test testMade (Use.readable_inputs reads) reads.line
    exact opens test _ (some s.line) (Script.spells_loose spells) plain

variable {floor : Nat}

theorem spells_loop_operand {name : String} {position : Nat} {default : String}
    (made : loopOperand s name position default = .ok code)
    (reads : ∀ i ∈ (Use.chosen s name position).toList, readableInput i) (spells : Spells floor 0 default e) :
    Spells floor 0 code (loopExpr s name position e) := by
  unfold loopOperand at made
  unfold loopExpr
  cases chosen : (s.input? name).or s.shownInputs[position]? with
  | none =>
    rw [chosen] at made
    cases made
    exact spells
  | some i =>
    rw [chosen] at made
    obtain ⟨a, read, rfl⟩ := map_ok made
    exact (spells_input s.key read (reads i (Option.mem_toList.mpr chosen))).2

def namedCode (function name code : String) : String := function ++ "(" ++ (quote name ++ ", " ++ code) ++ ")"

theorem spells_named (function name : String) (valid : isIdentifier function) (spells : Spells (floor + 1) 0 code e) :
    Spells floor 7 (namedCode function name code) (namedExpr function name e) := by
  have quoted : Spells (floor + 1) 0 (quote name) (textExpr name) :=
    Script.spells_loose (Script.spells_quote name)
  exact spells_function function valid [(quote name, textExpr name), (code, e)] (by simpa using ⟨quoted, spells⟩)

theorem list_code (code : String) : "list_param(\"lists\", " ++ code ++ ")" = namedCode "list_param" "lists" code := by
  have text : "list_param(\"lists\", " = "list_param" ++ ("(" ++ (quote "lists" ++ ", ")) := by decide
  rw [text]
  simp only [namedCode, String.append_assoc]

theorem items_code (code : String) :
    "items(dict_param(\"dicts\", " ++ code ++ "))" = "items" ++ "(" ++ namedCode "dict_param" "dicts" code ++ ")" := by
  have text : "items(dict_param(\"dicts\", " = "items" ++ ("(" ++ ("dict_param" ++ ("(" ++ (quote "dicts" ++ ", ")))) := by
    decide
  have closed : "))" = ")" ++ ")" := by decide
  rw [text, closed]
  simp only [namedCode, String.append_assoc]

def rangeCode (start stop stride : String) : String :=
  "range" ++ "(" ++ Text.joinWith ", " [namedCode "int_param" "start" start, namedCode "int_param" "end" stop,
    namedCode "int_param" "step" stride] ++ ")"

theorem range_code (start stop stride : String) :
    "range(int_param(\"start\", " ++ start ++ "), int_param(\"end\", " ++ stop ++ "), int_param(\"step\", " ++ stride ++ "))" =
      rangeCode start stop stride := by
  have front : "range(int_param(\"start\", " = "range" ++ ("(" ++ ("int_param" ++ ("(" ++ (quote "start" ++ ", ")))) := by
    decide
  have middle : "), int_param(\"end\", " = ")" ++ (", " ++ ("int_param" ++ ("(" ++ (quote "end" ++ ", ")))) := by decide
  have last : "), int_param(\"step\", " = ")" ++ (", " ++ ("int_param" ++ ("(" ++ (quote "step" ++ ", ")))) := by decide
  have closed : "))" = ")" ++ ")" := by decide
  rw [front, middle, last, closed]
  simp only [rangeCode, namedCode, List.map_cons, List.map_nil, join_with_first, String.join_cons, String.join_nil, String.append_empty,
    String.append_assoc]

theorem spells_list_param (made : loopOperand s "lists" 0 "[]" = .ok code)
    (reads : ∀ i ∈ (Use.loop .list s).inputs, readableInput i) :
    Spells floor 7 (namedCode "list_param" "lists" code) (listExpr s) := by
  have empty : Spells (floor + 1) 0 "[]" (.list []) :=
    Script.spells_loose (Script.spells_list [] (by simp))
  exact spells_named "list_param" "lists" (by decide)
    (spells_loop_operand made reads empty)

theorem spells_dict_items (made : loopOperand s "dicts" 0 "\x7b\x7d" = .ok code)
    (reads : ∀ i ∈ (Use.loop .map s).inputs, readableInput i) :
    Spells floor 7 ("items" ++ "(" ++ namedCode "dict_param" "dicts" code ++ ")") (mapExpr s) := by
  have empty : Spells (floor + 2) 0 "\x7b\x7d" (.dict []) :=
    Script.spells_loose (Script.spells_dict [] (by simp))
  have named := spells_named "dict_param" "dicts" (by decide)
    (spells_loop_operand made reads empty)
  exact spells_wrapped "items" (by decide) (Script.spells_loose named)

theorem spells_range {start stop stride : String} (startMade : loopOperand s "start" 0 "0" = .ok start)
    (stopMade : loopOperand s "end" 1 "0" = .ok stop) (strideMade : loopOperand s "step" 2 "1" = .ok stride)
    (reads : ∀ i ∈ (Use.loop .range s).inputs, readableInput i) :
    Spells floor 7 (rangeCode start stop stride) (rangeExpr s) := by
  simp only [Use.loop, List.forall_mem_append] at reads
  have number (n : Nat) (fits : (n : Int) < 2 ^ 63) : Spells (floor + 2) 0 (toString n) (numberExpr n) :=
    Script.spells_loose (Script.spells_nat n fits)
  have named (name code : String) (e : Expr) (spells : Spells (floor + 2) 0 code e) :=
    Script.spells_loose (spells_named "int_param" name (by decide) spells)
  have first := named "start" start _ (spells_loop_operand startMade reads.1.1 (number 0 (by decide)))
  have second := named "end" stop _ (spells_loop_operand stopMade reads.1.2 (number 0 (by decide)))
  have third := named "step" stride _ (spells_loop_operand strideMade reads.2 (number 1 (by decide)))
  exact spells_function "range" (by decide) [(_, _), (_, _), (_, _)] (by simpa using ⟨first, second, third⟩)

theorem item_pairs (c : Context) (s : Step) (outputs : ∀ o ∈ s.outputs, isIdentifier o.target) :
    ∃ (first : String × Target) (others : List (String × Target)),
      c.itemTargets s = Text.joinWith ", " ((first :: others).map Prod.fst) ∧
      c.itemsBound s = (first :: others).map Prod.snd ∧ ∀ p ∈ first :: others, Binds p.1 p.2 := by
  unfold itemTargets itemsBound
  cases pairs : c.targetPairs s with
  | nil =>
    have missing : s.outputs.isEmpty = true := by simpa [targetPairs] using pairs
    have identifier := numbered_identifier "__item_" s.line (by decide) (by decide)
    refine ⟨("__item_" ++ toString s.line ++ "__", .name ("__item_" ++ toString s.line ++ "__")), [], ?_, ?_, ?_⟩
    · rw [if_pos missing]
      rfl
    · rw [if_pos missing]
      rfl
    · simpa using Script.binds_name _ identifier
  | cons first others =>
    obtain ⟨present, texts, bound⟩ := assigned_pairs pairs
    refine ⟨first, others, ?_, ?_, pairs ▸ pairs_bind c outputs⟩
    · rw [if_neg (by rw [present]; decide), texts]
    · rw [if_neg (by rw [present]; decide), bound]

variable {level line next : Nat} {body : List Line} {stmts : List Stmt}

theorem written_loop_over {text : String} (origin : Option Nat)
    (same : text = "for " ++ Text.joinWith ", " ((first :: others).map Prod.fst) ++ " in " ++ code ++ ":")
    (plain : Plain text) (each : ∀ p ∈ first :: others, Binds p.1 p.2) (spells : Spells 0 7 code e) (filled : body ≠ [])
    (written : Written (level + 1) body (line + 1) next stmts) :
    Written level ([⟨level, text, origin⟩] ++ body) line next
      [⟨line, .forLoop ((first :: others).map Prod.snd) e stmts⟩] := by
  have ends := Script.ends_plain line text plain
  rw [same] at ends ⊢
  exact Script.written_for origin each
    (Script.spells_loose spells) ends filled written

def LoopHeader (c : Context) (kind : LoopKind) (s : Step) (header code : String) (e : Expr) : Prop :=
  ∃ (first : String × Target) (others : List (String × Target)),
    header = "for " ++ Text.joinWith ", " ((first :: others).map Prod.fst) ++ " in " ++ code ++ ":" ∧
    (∀ p ∈ first :: others, Binds p.1 p.2) ∧
    ∀ stmts, c.loopKind kind s stmts = .forLoop ((first :: others).map Prod.snd) e stmts

variable {header : String}

theorem written_loop_header {kind : LoopKind} (shape : LoopHeader c kind s header code e)
    (plain : Plain header) (spells : Spells 0 7 code e)
    (filled : body ≠ []) (written : Written (level + 1) body (line + 1) next stmts) :
    Written level ([⟨level, header, origin⟩] ++ body) line next [⟨line, c.loopKind kind s stmts⟩] := by
  obtain ⟨first, others, text, binds, loops⟩ := shape
  rw [loops]
  exact written_loop_over origin text plain binds spells filled written

section

variable (outputs : ∀ o ∈ s.outputs, isIdentifier o.target)
include outputs

theorem range_header (made : c.rangeHeader s = .ok header) :
    ∃ start stop stride, loopOperand s "start" 0 "0" = .ok start ∧ loopOperand s "end" 1 "0" = .ok stop ∧
      loopOperand s "step" 2 "1" = .ok stride ∧
      LoopHeader c .range s header (rangeCode start stop stride) (rangeExpr s) := by
  obtain ⟨start, startMade, made⟩ := bind_ok made
  obtain ⟨stop, stopMade, made⟩ := bind_ok made
  obtain ⟨stride, strideMade, made⟩ := bind_ok made
  cases made
  have binds : Binds ((c.targets s).head?.getD "i") ((c.boundTo s).head?.getD (.name "i")) := by
    rw [← pair_texts, ← pair_targets]
    have each := pairs_bind c outputs
    cases pairs : c.targetPairs s with
    | nil => exact Script.binds_name "i" (by decide)
    | cons first others => exact each first (pairs ▸ List.mem_cons_self)
  refine ⟨start, stop, stride, startMade, stopMade, strideMade,
    ((c.targets s).head?.getD "i", (c.boundTo s).head?.getD (.name "i")), [], ?_, List.forall_mem_singleton.mpr binds,
    fun _ => rfl⟩
  have text : " in range(int_param(\"start\", " = " in " ++ "range(int_param(\"start\", " := by decide
  have closed : ")):" = "))" ++ ":" := by decide
  rw [text, closed, ← range_code]
  simp only [List.map_cons, List.map_nil, join_with_first, String.join_nil, String.append_empty, String.append_assoc]

theorem list_header (made : c.listHeader s = .ok header) : ∃ items, loopOperand s "lists" 0 "[]" = .ok items ∧
      (LoopHeader c .list s header (namedCode "list_param" "lists" items) (listExpr s) ∨
        LoopHeader c .list s header ("enumerate" ++ "(" ++ namedCode "list_param" "lists" items ++ ")")
          (callOf "enumerate" [listExpr s])) := by
  obtain ⟨items, itemsMade, made⟩ := bind_ok made
  have each := pairs_bind c outputs
  refine ⟨items, itemsMade, ?_⟩
  rw [← pair_texts, list_code] at made
  have bound := pair_targets c s
  match pairs : c.targetPairs s with
  | [] =>
    rw [pairs] at made bound
    cases made
    refine .inl ⟨("item", .name "item"), [], ?_, by simpa using Script.binds_name "item" (by decide), fun _ => ?_⟩
    · have text : "for item in " = "for " ++ ("item" ++ " in ") := by decide
      rw [text]
      simp only [List.map_cons, List.map_nil, join_with_first, String.join_nil, String.append_empty, String.append_assoc]
    · rw [loopKind, ← bound]
      rfl
  | [item] =>
    rw [pairs] at made each bound
    cases made
    refine .inl ⟨item, [], ?_, each, fun _ => ?_⟩
    · simp only [List.map_cons, List.map_nil, join_with_first, String.join_nil, String.append_empty]
    · rw [loopKind, ← bound]
      rfl
  | index :: item :: rest =>
    rw [pairs] at made each bound
    cases made
    refine .inr ⟨index, [item], ?_, fun p member => each p (by simp at member ⊢; tauto), fun _ => ?_⟩
    · have text : " in enumerate(" = " in " ++ ("enumerate" ++ "(") := by decide
      have closed : "):" = ")" ++ ":" := by decide
      rw [text, closed]
      simp only [List.map_cons, List.map_nil, join_with_first, String.join_cons, String.join_nil, String.append_empty,
        String.append_assoc]
    · rw [loopKind, ← bound]
      rfl

theorem map_header (made : c.mapHeader s = .ok header) : ∃ entries, loopOperand s "dicts" 0 "\x7b\x7d" = .ok entries ∧
      LoopHeader c .map s header ("items" ++ "(" ++ namedCode "dict_param" "dicts" entries ++ ")") (mapExpr s) := by
  obtain ⟨entries, entriesMade, made⟩ := bind_ok made
  have each := pairs_bind c outputs
  have text : " in items(dict_param(\"dicts\", " = " in " ++ "items(dict_param(\"dicts\", " := by decide
  have closed : ")):" = "))" ++ ":" := by decide
  refine ⟨entries, entriesMade, ?_⟩
  rw [← pair_texts, text, closed] at made
  have bound := pair_targets c s
  rw [← items_code]
  match pairs : c.targetPairs s with
  | [] | [_] =>
    rw [pairs] at made bound
    cases made
    refine ⟨("key", .name "key"), [("value", .name "value")], ?_, ?_, fun _ => ?_⟩
    · simp only [List.map_cons, List.map_nil, join_with_first, String.join_cons, String.join_nil, String.append_empty,
        String.append_assoc]
    · simpa using ⟨Script.binds_name "key" (by decide), Script.binds_name "value" (by decide)⟩
    · rw [loopKind, ← bound]
      rfl
  | key :: value :: rest =>
    rw [pairs] at made each bound
    cases made
    refine ⟨key, [value], ?_, fun p member => each p (by simp at member ⊢; tauto), fun _ => ?_⟩
    · simp only [List.map_cons, List.map_nil, join_with_first, String.join_cons, String.join_nil, String.append_empty,
        String.append_assoc]
    · rw [loopKind, ← bound]
      rfl

end

theorem written_loop (c : Context) (kind : LoopKind) (s : Step) (level line next : Nat) (header body : List Line)
    (stmts : List Stmt) (made : c.loopLines kind s level = .ok header)
    (reads : (Use.loop kind s).Readable c) (filled : body ≠ [])
    (written : Written (level + 1) body (line + c.loopSpan kind s + 1) next stmts) :
    Written level (header ++ body) line next
      (c.loopStmts kind s line ++ [⟨line + c.loopSpan kind s, c.loopKind kind s stmts⟩]) := by
  have plain := (loop_lines_plain made).mpr (raw_loop_plain c reads.toNamed)
  cases kind with
  | «while» =>
    obtain ⟨test, testMade, made⟩ := bind_ok made
    cases made
    have spells := spells_comparison c s test testMade (Use.readable_inputs reads) reads.line
    exact Script.written_while _
      (Script.spells_loose spells)
      (Script.ends_plain _ _ ((single_line_plain).mp plain)) filled written
  | call =>
    obtain ⟨first, others, texts, bound, each⟩ := item_pairs c s reads.outputs
    refine written_header _ made reads (by decide) (by decide)
      fun code origin spells codePlain => ?_
    have targets : Plain (c.itemTargets s) := (item_targets_plain c s).mpr (raw_targets_plain c reads.outputs)
    have flat : Plain ("for " ++ c.itemTargets s ++ " in " ++ code ++ ":") := by
      simp only [Text.plain_append, targets, codePlain]
      decide
    have ends := Script.ends_plain (line + c.beforeSpan s) _ flat
    unfold loopKind
    rw [texts] at ends ⊢
    rw [bound]
    exact Script.written_for origin each spells ends filled written
  | range =>
    obtain ⟨header, headerMade, made⟩ := bind_ok made
    cases made
    obtain ⟨start, stop, stride, startMade, stopMade, strideMade, shape⟩ := range_header reads.outputs headerMade
    exact written_loop_header shape ((single_line_plain).mp plain)
      (spells_range startMade stopMade strideMade (Use.readable_inputs reads)) filled written
  | list =>
    obtain ⟨header, headerMade, made⟩ := bind_ok made
    cases made
    obtain ⟨items, itemsMade, shape | shape⟩ := list_header reads.outputs headerMade
    · exact written_loop_header shape ((single_line_plain).mp plain)
        (spells_list_param itemsMade (Use.readable_inputs reads)) filled written
    · have inner : Spells 1 0 _ _ := Script.spells_loose (spells_list_param itemsMade (Use.readable_inputs reads))
      exact written_loop_header shape ((single_line_plain).mp plain)
        (spells_wrapped "enumerate" (by decide) inner) filled written
  | map =>
    obtain ⟨header, headerMade, made⟩ := bind_ok made
    cases made
    obtain ⟨entries, entriesMade, shape⟩ := map_header reads.outputs headerMade
    exact written_loop_header shape ((single_line_plain).mp plain)
      (spells_dict_items entriesMade (Use.readable_inputs reads)) filled written

end Context

end Flowstep.Code
