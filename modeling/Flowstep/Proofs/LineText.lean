import Flowstep.Proofs.DecimalText
import Flowstep.Proofs.LineOrigins

/-!
Which texts of a flow reach its program as they stand.
-/
namespace Flowstep.Code

open Text (Plain plain_append plain_join_with plain_of_chars)
open Flowstep.Flow (Step Statement Clause Gate LoopKind ParamError Variable Fragment Input Tag Output)

@[simp] theorem quote_plain (s : String) : Plain (quote s) := by
  have inner (c : Char) : '\n' ∉ quotedChar c := by
    unfold quotedChar
    split <;> simp_all [eq_comm]
  rw [quote, plain_of_chars]
  simp [inner]

mutual

theorem literal_plain : ∀ j : Json, Plain (literal j)
  | .null => by rw [literal]; decide
  | .bool b => by cases b <;> rw [literal] <;> decide
  | .int n => by rw [literal]; exact Decimal.int_plain n
  | .float x => by rw [literal]; exact Decimal.write_plain x
  | .str s => by rw [literal]; exact quote_plain s
  | .arr items => by
    rw [literal, plain_append, plain_append, plain_join_with (by decide)]
    exact ⟨⟨by decide, literal_items_plain items⟩, by decide⟩
  | .obj ⟨fields⟩ => by
    rw [literal, plain_append, plain_append, plain_join_with (by decide)]
    exact ⟨⟨by decide, literal_fields_plain fields⟩, by decide⟩

theorem literal_items_plain : ∀ items : List Json, ∀ text ∈ literalItems items, Plain text
  | [] => by simp [literalItems]
  | j :: rest => by
    exact List.forall_mem_cons.mpr ⟨literal_plain j, literal_items_plain rest⟩

theorem literal_fields_plain : ∀ fields : List (String × Json), ∀ text ∈ literalFields fields, Plain text
  | [] => by simp [literalFields]
  | (k, j) :: rest => by
    refine List.forall_mem_cons.mpr ⟨?_, literal_fields_plain rest⟩
    rw [plain_append, plain_append]
    exact ⟨⟨quote_plain k, by decide⟩, literal_plain j⟩

end

variable {name : String}

@[simp] theorem global_ref_plain : Plain (globalRef name) := by simp +decide [globalRef]

def AllPlain (texts : List String) : Prop := ∀ text ∈ texts, Plain text

@[simp] theorem all_plain_nil : AllPlain [] ↔ True := by simp [AllPlain]

@[simp] theorem all_plain_cons (text : String) (rest : List String) :
    AllPlain (text :: rest) ↔ Plain text ∧ AllPlain rest := List.forall_mem_cons

@[simp] theorem all_plain_append (front back : List String) :
    AllPlain (front ++ back) ↔ AllPlain front ∧ AllPlain back := List.forall_mem_append

def rawFragments (fragments : List Fragment) : List String :=
  (fragments.filter fun f => f.tag = .expression || f.tag = .flowVariable || f.tag = .parameter).map
    fun f => literalText f.data

theorem piece_plain {f : Fragment} : Plain (Operand.piece f) ↔ AllPlain (rawFragments [f]) := by
  obtain ⟨tag, data⟩ := f
  cases tag with
  | text | other | element => simp [Operand.piece, rawFragments, literal_plain]
  | globalVariable | expression | flowVariable | parameter => simp [Operand.piece, rawFragments]

theorem raw_fragments_cons (f : Fragment) (rest : List Fragment) :
    rawFragments (f :: rest) = rawFragments [f] ++ rawFragments rest := by
  unfold rawFragments
  rw [← List.map_append, ← List.filter_append, List.singleton_append]

variable {fragments : List Fragment}

theorem joined_plain :
    Plain (Operand.joined fragments) ↔ AllPlain (rawFragments fragments) := by
  rw [Operand.joined, plain_join_with (by decide)]
  induction fragments with
  | nil => simp [rawFragments]
  | cons f rest ih =>
    rw [raw_fragments_cons, all_plain_append, ← ih, ← piece_plain, List.map_cons, List.forall_mem_cons]
    simp +decide

theorem raw_fragments_known (known : fragments.any (·.tag.needsEvaluation) = false) : rawFragments fragments = [] := by
  rw [rawFragments, List.map_eq_nil_iff, List.filter_eq_nil_iff]
  intro f member
  have fixed := List.any_eq_false.mp known f member
  obtain ⟨tag, data⟩ := f
  cases tag <;> simp_all [Tag.needsEvaluation]

theorem operand_plain :
    Plain (Operand.ofFragments fragments).code ↔ AllPlain (rawFragments fragments) := by
  cases known : fragments.any (·.tag.needsEvaluation) with
  | false =>
    rw [raw_fragments_known known, all_plain_nil, iff_true]
    unfold Operand.ofFragments
    rw [if_neg (by simp [known])]
    split <;> exact literal_plain _
  | true =>
    unfold Operand.ofFragments
    rw [if_pos known]
    split
    · exact piece_plain
    · exact joined_plain

-- The texts of an input that are code. A text that is to be parsed only passes its value on.
def rawInput (i : Input) : List String :=
  if i.parse = some "json_str" then [] else rawFragments i.value

theorem of_input_plain {key : String} {i : Input} {a : Argument} (made : Argument.ofInput key i = .ok a) :
    a.name = i.name ∧ (Plain a.code ↔ AllPlain (rawInput i)) := by
  unfold Argument.ofInput at made
  unfold rawInput
  by_cases parsed : i.parse = some "json_str"
  · rw [if_pos parsed] at made ⊢
    dsimp only at made
    split at made
    · cases made
      exact ⟨rfl, iff_of_true (literal_plain _) (all_plain_nil.mpr trivial)⟩
    · split at made
      · cases made
        exact ⟨rfl, iff_of_true (literal_plain _) (all_plain_nil.mpr trivial)⟩
      · cases made
  · rw [if_neg parsed] at made ⊢
    cases made
    refine ⟨rfl, ?_⟩
    rw [← operand_plain, Argument.code]
    split
    · rename_i reference _
      cases reference <;> simp +decide [plain_append, Reference.word]
    · rfl

def rawArguments (s : Step) : List String := s.shownInputs.flatMap fun i => i.name :: rawInput i

theorem argument_texts_plain {key : String} {inputs : List Input} (given : List String)
    (made : (inputs.mapM fun i => (Argument.ofInput key i).map Argument.text) = .ok given) :
    AllPlain given ↔ AllPlain (inputs.flatMap fun i => i.name :: rawInput i) := by
  induction inputs generalizing given with
  | nil =>
    cases made
    rfl
  | cons i rest ih =>
    rw [List.mapM_cons] at made
    obtain ⟨text, textMade, made⟩ := bind_ok made
    obtain ⟨others, othersMade, made⟩ := bind_ok made
    cases made
    obtain ⟨a, read, textMade⟩ := map_ok textMade
    obtain ⟨named, code⟩ := of_input_plain read
    rw [List.flatMap_cons, all_plain_append, all_plain_cons, all_plain_cons, ← ih others othersMade, ← textMade,
      Argument.text, named]
    simp +decide [code]

variable {s : Step}

theorem arguments_plain {given : List String} (made : Context.arguments s = .ok given) :
    AllPlain given ↔ AllPlain (rawArguments s) :=
  argument_texts_plain given made

variable (c : Context)

@[simp] theorem place_plain (s : Step) : Plain (c.place s) := by simp +decide [Context.place]

@[simp] theorem option_arguments_plain (s : Step) : AllPlain (c.optionArguments s) := by
  have timed (wanted : Prop) [Decidable wanted] (name : String) (x : Float) (plain : Plain name) :
      AllPlain (if wanted then [name ++ Decimal.plain.write x] else []) := by
    split <;> simp [plain]
  have flagged (wanted : Bool) (text : String) (plain : Plain text) :
      AllPlain (if wanted then [text] else []) := by
    split <;> simp [plain]
  unfold Context.optionArguments
  simp only [all_plain_append]
  refine ⟨⟨⟨⟨?_, timed _ _ _ (by decide)⟩, timed _ _ _ (by decide)⟩, flagged _ _ (by decide)⟩,
    flagged _ _ (by decide)⟩
  cases s.options.onError <;> simp +decide

def rawCall (s : Step) : List String := s.key :: rawArguments s

theorem call_plain {s : Step} {call : String} (made : c.call s = .ok call) : Plain call ↔ AllPlain (rawCall s) := by
  obtain ⟨given, givenMade, made⟩ := bind_ok made
  cases made
  rw [rawCall, all_plain_cons, ← arguments_plain givenMade, plain_append, plain_append, plain_append,
    plain_join_with (by decide)]
  change (_ ∧ AllPlain _) ∧ _ ↔ _
  simp +decide

theorem comparison_plain (s : Step) (test : String) (made : c.comparison s = .ok test) :
    Plain test ↔ AllPlain (rawArguments s) := by
  obtain ⟨given, givenMade, made⟩ := bind_ok made
  cases made
  rw [← arguments_plain givenMade, plain_append, plain_append, plain_join_with (by decide)]
  change (_ ∧ AllPlain _) ∧ _ ↔ _
  simp +decide

def rawTargets (c : Context) (outputs : List Output) : List String :=
  (outputs.map (·.target)).filter fun name => !c.globals.contains name

theorem targets_plain (outputs : List Output) :
    AllPlain (outputs.map fun o => targetOf c.globals o.target) ↔ AllPlain (rawTargets c outputs) := by
  induction outputs with
  | nil => rfl
  | cons o rest ih =>
    rw [List.map_cons, all_plain_cons, ih]
    unfold rawTargets
    rw [List.map_cons]
    by_cases known : c.globals.contains o.target = true
    · rw [targetOf, if_pos known, List.filter_cons_of_neg (by rw [known]; decide)]
      exact and_iff_right (global_ref_plain)
    · rw [targetOf, if_neg known, List.filter_cons_of_pos (by rw [Bool.not_eq_true] at known; rw [known]; rfl),
        all_plain_cons]

theorem assignment_plain (s : Step) : Plain (c.assignment s) ↔ AllPlain (rawTargets c s.outputs) := by
  unfold Context.assignment
  split
  · rename_i missing
    rw [List.isEmpty_iff.mp missing]
    exact iff_of_true (by decide) (all_plain_nil.mpr trivial)
  · rw [← targets_plain, plain_append, plain_join_with (by decide)]
    exact and_iff_left (by decide)

theorem item_targets_plain (s : Step) : Plain (c.itemTargets s) ↔ AllPlain (rawTargets c s.outputs) := by
  unfold Context.itemTargets
  split
  · rename_i missing
    rw [List.isEmpty_iff.mp missing]
    exact iff_of_true (by simp +decide) (all_plain_nil.mpr trivial)
  · rw [← targets_plain, plain_join_with (by decide)]
    rfl

def texts (lines : List Line) : List String := lines.map (·.text)

@[simp] theorem texts_append (front back : List Line) : texts (front ++ back) = texts front ++ texts back :=
  List.map_append

theorem retry_record_plain (s : Step) {status : String} (extra : String) (known : Plain status) :
    Plain (c.retryRecord s status extra) ↔ Plain extra := by
  unfold Context.retryRecord
  simp +decide only [plain_append, Decimal.nat_plain, quote_plain, known, true_and, and_true]

theorem retry_lines_plain (s : Step) (indent : Nat) {statement : String} :
    AllPlain (texts (c.retryLines s indent statement)) ↔ Plain statement := by
  have pause : AllPlain (texts (if 0 < s.options.retryInterval then
      [Line.mk (indent + 2) ("sleep(" ++ Decimal.plain.write s.options.retryInterval ++ ")") none] else [])) := by
    split <;> simp +decide [texts]
  unfold Context.retryLines
  rw [texts_append, all_plain_append, and_iff_left pause]
  have start : Plain "start" := by decide
  have error : Plain "error" := by decide
  have retry : Plain "retry" := by decide
  simp +decide [texts, retry_record_plain _ _ _ start, retry_record_plain _ _ _ error, retry_record_plain _ _ _ retry]

variable {indent : Nat} {lines : List Line}

theorem call_lines_plain (made : c.callLines s indent = .ok lines) :
    AllPlain (texts lines) ↔ AllPlain (rawTargets c s.outputs ++ rawCall s) := by
  obtain ⟨call, callMade, made⟩ := bind_ok made
  rw [all_plain_append, ← assignment_plain, ← call_plain c callMade, ← plain_append]
  by_cases again : c.retries s
  · rw [if_pos again] at made
    cases made
    exact retry_lines_plain c s indent
  · rw [if_neg again] at made
    cases made
    simp [texts]

variable {c : Context}

theorem header_lines_plain {header : String → String} (raw : List String) (known : Plain name)
    (framed : ∀ test, Plain (header test) ↔ AllPlain raw ∧ Plain test)
    (made : c.headerLines s indent name header = .ok lines) :
    AllPlain (texts lines) ↔ AllPlain (raw ++ rawCall s) := by
  obtain ⟨call, callMade, made⟩ := bind_ok made
  rw [all_plain_append, ← call_plain c callMade]
  have result : Plain ("__" ++ name ++ "_" ++ toString s.line ++ "__") := by simp +decide [known]
  by_cases again : c.retries s
  · rw [if_pos again] at made
    cases made
    rw [texts_append, all_plain_append, retry_lines_plain, plain_append, plain_append]
    simp +decide only [texts, List.map_cons, List.map_nil, all_plain_cons, all_plain_nil, framed, result, true_and, and_true]
    exact and_comm
  · rw [if_neg again] at made
    cases made
    simp [texts, framed]

def rawOperand (s : Step) (name : String) (position : Nat) : List String :=
  (((s.input? name).or s.shownInputs[position]?).map rawInput).getD []

theorem loop_operand_plain {position : Nat} {default code : String} (known : Plain default)
    (made : Context.loopOperand s name position default = .ok code) :
    Plain code ↔ AllPlain (rawOperand s name position) := by
  unfold Context.loopOperand at made
  unfold rawOperand
  cases chosen : (s.input? name).or s.shownInputs[position]? with
  | none =>
    rw [chosen] at made
    cases made
    exact iff_of_true known (all_plain_nil.mpr trivial)
  | some i =>
    rw [chosen] at made
    obtain ⟨a, read, rfl⟩ := map_ok made
    exact (of_input_plain read).2

-- The texts of a step that reach the header of a loop. A range binds one variable, a list up to two
-- and a map two or none.
def rawLoop (c : Context) (kind : LoopKind) (s : Step) : List String :=
  match kind with
  | .while => rawArguments s
  | .call => rawTargets c s.outputs ++ rawCall s
  | .range =>
    rawTargets c (s.outputs.take 1) ++ rawOperand s "start" 0 ++ rawOperand s "end" 1 ++ rawOperand s "step" 2
  | .list => rawTargets c (s.outputs.take 2) ++ rawOperand s "lists" 0
  | .map => (if 2 ≤ s.outputs.length then rawTargets c (s.outputs.take 2) else []) ++ rawOperand s "dicts" 0

variable {header : String}

theorem range_header_plain (made : c.rangeHeader s = .ok header) :
    Plain header ↔ AllPlain (rawLoop c .range s) := by
  obtain ⟨start, startMade, made⟩ := bind_ok made
  obtain ⟨stop, stopMade, made⟩ := bind_ok made
  obtain ⟨stride, strideMade, made⟩ := bind_ok made
  cases made
  have target : Plain ((c.targets s).head?.getD "i") ↔ AllPlain (rawTargets c (s.outputs.take 1)) := by
    rw [← targets_plain, Context.targets]
    cases s.outputs <;> simp +decide
  simp +decide [rawLoop, target, loop_operand_plain _ startMade, loop_operand_plain _ stopMade, loop_operand_plain _ strideMade,
    and_assoc]

theorem list_header_plain (made : c.listHeader s = .ok header) :
    Plain header ↔ AllPlain (rawLoop c .list s) := by
  obtain ⟨items, itemsMade, made⟩ := bind_ok made
  have operand := loop_operand_plain (by decide) itemsMade
  rw [rawLoop, all_plain_append, ← targets_plain, List.map_take]
  rw [show s.outputs.map (fun o => targetOf c.globals o.target) = c.targets s from rfl]
  cases bound : c.targets s with
  | nil =>
    rw [bound] at made
    cases made
    simp +decide [operand]
  | cons first rest =>
    cases rest with
    | nil =>
      rw [bound] at made
      cases made
      simp +decide [operand]
    | cons second rest =>
      rw [bound] at made
      cases made
      simp +decide [operand]

theorem map_header_plain (made : c.mapHeader s = .ok header) :
    Plain header ↔ AllPlain (rawLoop c .map s) := by
  obtain ⟨entries, entriesMade, made⟩ := bind_ok made
  have operand := loop_operand_plain (by decide) entriesMade
  have counted : s.outputs.length = (c.targets s).length := by simp [Context.targets]
  have kept : AllPlain (rawTargets c (s.outputs.take 2)) ↔ AllPlain ((c.targets s).take 2) := by
    rw [← targets_plain, List.map_take, Context.targets]
  rw [rawLoop, all_plain_append, ← operand, counted]
  cases bound : c.targets s with
  | nil =>
    rw [bound] at made
    cases made
    simp +decide
  | cons first rest =>
    cases rest with
    | nil =>
      rw [bound] at made
      cases made
      simp +decide
    | cons second rest =>
      rw [bound] at made kept
      cases made
      simp +decide [kept]

def rawGate (gate : Gate) (s : Step) : List String :=
  match gate with
  | .call => rawCall s
  | .comparison => rawArguments s

theorem single_line_plain {text : String} {origin : Option Nat} :
    AllPlain (texts [⟨indent, text, origin⟩]) ↔ Plain text := by
  simp [texts]

theorem branch_lines_plain {gate : Gate} (made : c.branchLines gate s indent = .ok lines) :
    AllPlain (texts lines) ↔ AllPlain (rawGate gate s) := by
  cases gate with
  | call =>
    exact header_lines_plain [] (by decide) (fun test => by simp +decide) made
  | comparison =>
    obtain ⟨test, testMade, made⟩ := bind_ok made
    cases made
    simp +decide [texts, comparison_plain c s test testMade, rawGate]

theorem loop_lines_plain {kind : LoopKind} (made : c.loopLines kind s indent = .ok lines) :
    AllPlain (texts lines) ↔ AllPlain (rawLoop c kind s) := by
  cases kind with
  | «while» =>
    obtain ⟨test, testMade, made⟩ := bind_ok made
    cases made
    simp +decide [texts, comparison_plain c s test testMade, rawLoop]
  | call =>
    exact header_lines_plain (rawTargets c s.outputs) (by decide) (fun result => by simp +decide [item_targets_plain]) made
  | range =>
    obtain ⟨header, headerMade, made⟩ := bind_ok made
    cases made
    rw [single_line_plain, range_header_plain headerMade]
  | list =>
    obtain ⟨header, headerMade, made⟩ := bind_ok made
    cases made
    rw [single_line_plain, list_header_plain headerMade]
  | map =>
    obtain ⟨header, headerMade, made⟩ := bind_ok made
    cases made
    rw [single_line_plain, map_header_plain headerMade]

@[simp] theorem closer_line_plain (indent : Nat) (closing : Option Step) :
    AllPlain (texts (closerLine indent closing)) := by
  cases closing <;> simp +decide [closerLine, texts]

@[simp] theorem missing_clause_plain (indent : Nat) (handler final : Option Clause) :
    AllPlain (texts (missingClause indent handler final)) := by
  unfold missingClause
  split <;> simp +decide [texts]

mutual

def rawStatement (c : Context) : Statement → List String
  | .atomic step => rawTargets c step.outputs ++ rawCall step
  | .break _ | .continue _ | .return _ => []
  | .branch gate step body alternatives otherwise _ =>
    rawGate gate step ++ rawBlock c body ++ rawAlternatives c alternatives ++ rawClause c otherwise
  | .loop kind step body _ => rawLoop c kind step ++ rawBlock c body
  | .attempt _ body handler final _ => rawBlock c body ++ rawClause c handler ++ rawClause c final

def rawBlock (c : Context) : List Statement → List String
  | [] => []
  | s :: rest => rawStatement c s ++ rawBlock c rest

def rawAlternatives (c : Context) : List Clause → List String
  | [] => []
  | ⟨step, body⟩ :: rest => rawArguments step ++ rawBlock c body ++ rawAlternatives c rest

def rawClause (c : Context) : Option Clause → List String
  | none => []
  | some ⟨_, body⟩ => rawBlock c body

end

@[simp] theorem texts_cons (line : Line) (rest : List Line) : texts (line :: rest) = line.text :: texts rest := rfl

def plainMotive (c : Context) : Motive where
  statement _ s lines := AllPlain (texts lines) ↔ AllPlain (rawStatement c s)
  all _ block lines := AllPlain (texts lines) ↔ AllPlain (rawBlock c block)
  block _ block lines := AllPlain (texts lines) ↔ AllPlain (rawBlock c block)
  alternatives _ clauses lines := AllPlain (texts lines) ↔ AllPlain (rawAlternatives c clauses)
  clause _ header clause lines := Plain header → (AllPlain (texts lines) ↔ AllPlain (rawClause c clause))

theorem plain_kept (c : Context) : (plainMotive c).Kept c where
  atomic := call_lines_plain c
  «break» _ _ := iff_of_true ((single_line_plain).mpr (by decide)) (all_plain_nil.mpr trivial)
  «continue» _ _ := iff_of_true ((single_line_plain).mpr (by decide)) (all_plain_nil.mpr trivial)
  «return» _ _ := iff_of_true ((single_line_plain).mpr (by decide)) (all_plain_nil.mpr trivial)
  branch indent closing header _ _ body alternatives otherwise := by
    dsimp only [plainMotive] at *
    simp [rawStatement, body, alternatives, branch_lines_plain header, otherwise (by decide)]
  loop indent closing header _ body := by
    dsimp only [plainMotive] at *
    simp [rawStatement, body, loop_lines_plain header]
  attempt indent step _ _ closing _ _ body handler final := by
    dsimp only [plainMotive] at *
    simp +decide [rawStatement, body, handler (by decide), final (by decide)]
  nil _ := Iff.rfl
  cons _ first others := by
    dsimp only [plainMotive] at *
    simp [rawBlock, first, others]
  empty _ := iff_of_true ((single_line_plain).mpr (by decide)) (all_plain_nil.mpr trivial)
  filled all := all
  done _ := Iff.rfl
  elif indent test _ body others := by
    dsimp only [plainMotive] at *
    simp +decide [rawAlternatives, comparison_plain c _ _ test, body, others]
  absent _ _ _ := Iff.rfl
  present body known := by
    dsimp only [plainMotive] at *
    simp [rawClause, body, known]

def declaredValue (v : Variable) : Json :=
  match v.value with
  | .str s => if Text.startsWith (Text.trimStart s) "[" then (Json.parse? s).getD v.value else v.value
  | j => j

def rawParameter (v : Variable) : List String := v.name :: rawFragments (Fragment.ofValue (declaredValue v))

theorem load_text_plain (v : Variable) : Plain (loadText v) ↔ AllPlain (rawParameter v) := by
  have default : Plain (Operand.ofDefault v).code ↔ AllPlain (rawFragments (Fragment.ofValue (declaredValue v))) :=
    operand_plain
  simp +decide [loadText, rawParameter, default]

theorem write_back_plain (v : Variable) (named : Plain v.name) : Plain (writeBackText v) := by
  simp +decide [writeBackText, named]

def rawProgram (c : Context) (params : List Variable) (statements : List Statement) : List String :=
  params.flatMap rawParameter ++ rawBlock c statements

theorem parameters_plain (params : List Variable) :
    AllPlain (params.map loadText) ↔ AllPlain (params.flatMap rawParameter) := by
  induction params with
  | nil => rfl
  | cons v rest ih => simp [ih, load_text_plain]

variable {params : List Variable}

theorem outputs_plain (plain : AllPlain (params.map loadText)) :
    AllPlain ((outputs params).map writeBackText) := by
  intro text member
  obtain ⟨v, kept, rfl⟩ := List.mem_map.mp member
  have loaded := plain (loadText v) (List.mem_map_of_mem (List.mem_of_mem_filter kept))
  exact write_back_plain v ((load_text_plain v).mp loaded v.name (by simp [rawParameter]))

variable {statements : List Statement}

theorem program_plain (made : program c params statements = .ok lines) :
    AllPlain (texts lines) ↔ AllPlain (rawProgram c params statements) := by
  obtain ⟨flow, flowMade, made⟩ := bind_ok made
  cases made
  have loads : texts (params.map fun v => ⟨1, loadText v, none⟩) = params.map loadText := by
    simp [texts]
  have writes : texts ((outputs params).map fun v => ⟨2, writeBackText v, none⟩) =
      (outputs params).map writeBackText := by
    simp [texts]
  have body : AllPlain (texts flow) ↔ AllPlain (rawBlock c statements) :=
    (plainMotive c).all_emitted (plain_kept c) 2 statements flow flowMade
  have ends : AllPlain (texts []) := all_plain_nil.mpr trivial
  simp +decide only [List.cons_append, texts_cons, texts_append, all_plain_cons, all_plain_append, ends, loads, writes,
    true_and, and_true, rawProgram, body, ← parameters_plain]
  exact and_iff_left_of_imp fun plain : AllPlain (params.map loadText) ∧ _ => outputs_plain plain.1

theorem render_plain (width : Nat) (line : Line) : Plain (line.render width) ↔ Plain line.text := by
  have spaces : Plain ("".pushn ' ' (line.indent * width)) := by
    rw [Plain, Text.spaces_chars]
    simp
  rw [Line.render, plain_append]
  exact and_iff_right spaces

theorem render_pieces {width : Nat} (present : lines ≠ []) :
    Text.pieces (render width lines) = lines.map (Line.render width) ↔ AllPlain (texts lines) := by
  rw [render, Text.pieces_join_lines (by simpa using present)]
  simp [AllPlain, texts, render_plain]

theorem program_lines_present (made : program c params statements = .ok lines) : lines ≠ [] := by
  obtain ⟨flow, _, made⟩ := bind_ok made
  cases made
  simp

end Flowstep.Code

namespace Flowstep.Project

open Code (LineMap Line rawProgram AllPlain)

variable {settings : Settings} {tables : Flow.Tables}

theorem build_category {globals : List String} {isEntry : Bool}
    {stem : String} {u : UnitEntry} {code : UnitCode} {calls : List Flow.Step}
    (built : UnitCode.build settings tables globals isEntry stem u = .ok (code, calls)) :
    code.category = u.category := by
  unfold UnitCode.build at built
  split at built
  · rename_i kind
    cases built
    rfl
  · obtain ⟨steps, _, built⟩ := bind_ok built
    obtain ⟨statements, _, built⟩ := bind_ok built
    obtain ⟨lines, _, built⟩ := bind_ok built
    cases built
    rfl

theorem build_units_mem {settings : Settings} {tables : Flow.Tables} {globals : List String} {entry : String}
    {entries : List UnitEntry} (processes modules : Nat) (units : Dict UnitCode) (titles : Dict (Dict String))
    {result : Dict UnitCode × Dict (Dict String)}
    (built : buildUnits settings tables globals entry processes modules units titles entries = .ok result)
    {id : String} {code : UnitCode} (member : (id, code) ∈ result.1.entries) :
    (id, code) ∈ units.entries ∨ ∃ u ∈ entries, u.id = id ∧ ∃ stem calls,
      UnitCode.build settings tables globals (u.id == entry) stem u = .ok (code, calls) := by
  induction entries generalizing processes modules units titles with
  | nil =>
    cases built
    exact .inl member
  | cons u rest ih =>
    obtain ⟨⟨unitCode, calls⟩, unitBuilt, built⟩ := bind_ok built
    dsimp only at built
    split at built
    · cases built
    rcases ih _ _ _ _ built with earlier | ⟨other, inside, named, made⟩
    · rcases Dict.mem_insert_entry u.id unitCode units.entries (id, code) earlier with same | kept
      · obtain ⟨rfl, rfl⟩ := Prod.mk.inj same
        exact .inr ⟨u, List.mem_cons_self, rfl, _, calls, map_error_ok unitBuilt⟩
      · exact .inl kept
    · exact .inr ⟨other, List.mem_cons_of_mem _ inside, named, made⟩

theorem bundle_unit {d : Document} {bundle : Bundle}
    (built : d.build settings tables = .ok bundle) (id : String) (code : UnitCode)
    (member : (id, code) ∈ bundle.units.entries) :
    ∃ u ∈ d.units, u.id = id ∧ ∃ stem calls, UnitCode.build settings tables (d.globals.map (·.name))
      (u.id == bundle.entry) stem u = .ok (code, calls) := by
  obtain ⟨_, unitsBuilt, _⟩ := build_parts built
  rcases build_units_mem _ _ _ _ unitsBuilt member with absent | found
  · cases absent
  · exact found

-- A mapped line is the line of text with its number exactly when no text that the unit takes over as it
-- stands holds a line feed.
theorem process_text_has_one_line_each (settings : Settings) (tables : Flow.Tables) (d : Document)
    (bundle : Bundle) (built : d.build settings tables = .ok bundle) (id : String) (code : UnitCode)
    (member : (id, code) ∈ bundle.units.entries) (process : code.category = .process) :
    ∃ u ∈ d.units, ∃ statements lines map, u.id = id ∧
      flowStatements tables (unitWindow settings (u.id == bundle.entry)) u.flow = .ok statements ∧
      Code.program ⟨u.id, d.globals.map (·.name), settings.debug⟩ u.params statements = .ok lines ∧
      code.lineMap = some map ∧ map = LineMap.ofLines lines ∧
      (Text.pieces code.source = lines.map (Line.render settings.indentWidth) ↔
        ∀ text ∈ rawProgram ⟨u.id, d.globals.map (·.name), settings.debug⟩ u.params statements,
          '\n' ∉ text.toList) ∧
      ((∀ text ∈ rawProgram ⟨u.id, d.globals.map (·.name), settings.debug⟩ u.params statements,
          '\n' ∉ text.toList) →
        ∀ g f, map.flowLine? g = some f → ∃ line, 1 ≤ g ∧ lines[g - 1]? = some line ∧ line.origin = some f ∧
          (Text.pieces code.source)[g - 1]? = some (line.render settings.indentWidth)) := by
  obtain ⟨u, inside, named, stem, calls, unitBuilt⟩ := bundle_unit built id code member
  rw [build_category unitBuilt] at process
  obtain ⟨statements, lines, parsed, made, source, mapped⟩ := build_process process unitBuilt
  have aligned : Text.pieces code.source = lines.map (Line.render settings.indentWidth) ↔
      AllPlain (rawProgram ⟨u.id, d.globals.map (·.name), settings.debug⟩ u.params statements) := by
    rw [source, Code.render_pieces (Code.program_lines_present made), Code.program_plain made]
  refine ⟨u, inside, statements, lines, LineMap.ofLines lines, named, parsed, made, mapped, rfl, aligned, ?_⟩
  intro plain g f found
  have numbered := (LineMap.of_origins_flow_line _ g f).mp found
  obtain ⟨positive, origin⟩ := (Code.mem_numbered _ 1 g f).mp numbered
  rw [List.getElem?_map, Option.map_eq_some_iff] at origin
  obtain ⟨line, here, own⟩ := origin
  refine ⟨line, positive, here, own, ?_⟩
  rw [aligned.mpr plain, List.getElem?_map, here]
  rfl

def sizedProject (size : String) : Document where
  id := "sized"
  units := [{
    id := "p1"
    flow := [
      { key := "Net.fetch"
        inputs := [{ key := "size", value := .arr [.ofFields [("type", .str "python"), ("data", .str size)]] }] },
      { key := "Net.close" }] }]

theorem sized_project_lines : ∃ bundle code map, ∃ line : Line,
    (sizedProject "1 + 2").build {} .standard = .ok bundle ∧ ("p1", code) ∈ bundle.units.entries ∧
    code.lineMap = some map ∧ map.flowLine? 5 = some 2 ∧ line.origin = some 2 ∧ (Text.pieces code.source)[4]? = some (line.render 4) := by
  have builds : ∃ bundle code map, (sizedProject "1 + 2").build {} .standard = .ok bundle ∧
      bundle.units.entries = [("p1", code)] ∧ bundle.entry = "p1" ∧ code.category = .process ∧
      code.lineMap = some map ∧ map.flowLine? 5 = some 2 :=
    ⟨_, _, _, rfl, rfl, rfl, rfl, rfl, by decide⟩
  obtain ⟨bundle, code, map, built, units, entry, process, mapped, found⟩ := builds
  have member : ("p1", code) ∈ bundle.units.entries := by rw [units]; exact List.mem_singleton_self _
  obtain ⟨u, inside, statements, lines, same, _, parsed, _, mappedTo, _, _, each⟩ :=
    process_text_has_one_line_each {} .standard _ bundle built "p1" code member process
  cases Option.some.inj (mapped.symm.trans mappedTo)
  cases List.mem_singleton.mp inside
  rw [entry] at parsed
  cases parsed
  obtain ⟨line, _, _, own, piece⟩ := each (by decide) 5 2 found
  exact ⟨bundle, code, map, line, built, member, mapped, found, own, piece⟩

-- The line that is mapped to the second step holds the rest of the first one.
theorem line_feed_in_expression_shifts_lines : ∃ bundle code map,
    (sizedProject "1 +\n2").build {} .standard = .ok bundle ∧ ("p1", code) ∈ bundle.units.entries ∧
      code.category = .process ∧ code.lineMap = some map ∧ map.flowLine? 5 = some 2 ∧
      (Text.pieces code.source)[4]? = some "2, __info__=[1, \"p1\"])" :=
  ⟨_, _, _, rfl, List.mem_singleton_self _, rfl, rfl, by decide, by decide +kernel⟩

end Flowstep.Project
