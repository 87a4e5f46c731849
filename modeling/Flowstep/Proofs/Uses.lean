import Flowstep.Proofs.Meaning

/-!
What of a flow is written into its program.
-/
namespace Flowstep.Code

open Flowstep.Flow (Fragment Input Step Statement Clause Gate LoopKind Variable blockSteps blockCalls clausesSteps clausesCalls
  clauseSteps clauseCalls)

mutual

def readable : Json → Bool
  | .int n => -2 ^ 63 < n && n < 2 ^ 63
  | .float x => x.isFinite
  | .arr items => readableItems items
  | .obj ⟨fields⟩ => readableFields fields
  | _ => true

def readableItems : List Json → Bool
  | [] => true
  | j :: rest => readable j && readableItems rest

def readableFields : List (String × Json) → Bool
  | [] => true
  | (_, j) :: rest => readable j && readableFields rest

end

def readableTime (x : Float) : Bool := !(0 < x) || x < 9223372036854775808

def namedFragment (f : Fragment) : Bool :=
  match f.tag with
  | .flowVariable | .parameter => Script.isIdentifier (literalText f.data)
  | .expression => false
  | _ => true

def namedInput (i : Input) : Bool :=
  Script.isIdentifier i.name && (i.parse = some "json_str" || i.value.all namedFragment)

def knownData (fragments : List Fragment) : List Json := (fragments.filter (!·.tag.needsEvaluation)).map (·.data)

def operandLiterals (fragments : List Fragment) : List Json :=
  if fragments.any (·.tag.needsEvaluation) then knownData fragments
  else match fragments with
    | [f] => [f.data]
    | _ => []

def inputLiterals (i : Input) : List Json :=
  if i.parse = some "json_str" then [heldValue i] else operandLiterals i.value

def readableInput (i : Input) : Bool := namedInput i && (inputLiterals i).all readable

def namedVariable (v : Variable) : Bool :=
  Script.isIdentifier v.name && (Fragment.ofValue (declaredValue v)).all namedFragment

def variableLiterals (v : Variable) : List Json := operandLiterals (Fragment.ofValue (declaredValue v))

def readableVariable (v : Variable) : Bool := namedVariable v && (variableLiterals v).all readable

-- A step as it is written: with some of its inputs, and with its key and its options if it is called.
structure Use where
  step : Step
  inputs : List Input
  called : Bool

namespace Use

def call (s : Step) : Use := ⟨s, s.shownInputs, true⟩

def test (s : Step) : Use := ⟨s, s.shownInputs, false⟩

def chosen (s : Step) (name : String) (position : Nat) : Option Input := (s.input? name).or s.shownInputs[position]?

def gate : Gate → Step → Use
  | .call, s => call s
  | .comparison, s => test s

def loop : LoopKind → Step → Use
  | .while, s => test s
  | .call, s => call s
  | .range, s =>
    ⟨s, (chosen s "start" 0).toList ++ (chosen s "end" 1).toList ++ (chosen s "step" 2).toList, false⟩
  | .list, s => ⟨s, (chosen s "lists" 0).toList, false⟩
  | .map, s => ⟨s, (chosen s "dicts" 0).toList, false⟩

-- What the names of a step have to be for it to be written as a step at all. The other numbers in it are those of a flow.
structure Named (u : Use) : Prop where
  inputs : ∀ i ∈ u.inputs, namedInput i
  outputs : ∀ o ∈ u.step.outputs, Script.isIdentifier o.target
  key : u.called → loadableKey u.step.key
  line : u.step.line < 2 ^ 63
  count : u.step.options.retryCount < 2 ^ 63

structure Fits (c : Context) (u : Use) : Prop where
  literals : ∀ i ∈ u.inputs, ∀ j ∈ inputLiterals i, readable j
  before : u.called → readableTime u.step.options.delayBefore
  after : u.called → readableTime u.step.options.delayAfter
  interval : u.called → c.retries u.step → readableTime u.step.options.retryInterval

instance (c : Context) : DecidablePred (Fits c) := fun u =>
  decidable_of_iff ((∀ i ∈ u.inputs, ∀ j ∈ inputLiterals i, readable j) ∧
      (u.called → readableTime u.step.options.delayBefore) ∧ (u.called → readableTime u.step.options.delayAfter) ∧
      (u.called → c.retries u.step → readableTime u.step.options.retryInterval))
    ⟨fun ⟨literals, before, after, interval⟩ => ⟨literals, before, after, interval⟩,
      fun ⟨literals, before, after, interval⟩ => ⟨literals, before, after, interval⟩⟩

structure Readable (c : Context) (u : Use) : Prop extends Named u, Fits c u

theorem readable_inputs {c : Context} {u : Use} (reads : u.Readable c) : ∀ i ∈ u.inputs, readableInput i := by
  intro i member
  rw [readableInput, Bool.and_eq_true, List.all_eq_true]
  exact ⟨reads.inputs i member, reads.literals i member⟩

variable (kind : LoopKind) (s : Step)

theorem chosen_shown (name : String) (position : Nat) : ∀ i ∈ (chosen s name position).toList, i ∈ s.shownInputs := by
  intro i member
  rcases Option.or_eq_some_iff.mp (Option.mem_toList.mp member) with found | ⟨_, found⟩
  · exact List.mem_of_find?_eq_some found
  · exact List.mem_of_getElem? found

theorem loop_inputs : ∀ i ∈ (loop kind s).inputs, i ∈ s.shownInputs := by
  intro i member
  have shown (name : String) (position : Nat) := chosen_shown s name position i
  cases kind with
  | «while» | call => exact member
  | range =>
    rcases List.mem_append.mp member with member | member
    · rcases List.mem_append.mp member with member | member
      · exact shown "start" 0 member
      · exact shown "end" 1 member
    · exact shown "step" 2 member
  | list => exact shown "lists" 0 member
  | map => exact shown "dicts" 0 member

theorem loop_step : (loop kind s).step = s := by cases kind <;> rfl

theorem loop_called : (loop kind s).called = true ↔ kind = .call := by
  cases kind <;> simp [loop, test, call]

end Use

mutual

def statementUses : Statement → List Use
  | .atomic step => [.call step]
  | .break _ | .continue _ | .return _ => []
  | .branch gate step body alternatives otherwise _ =>
    .gate gate step :: (blockUses body ++ clausesUses alternatives ++ clauseUses otherwise)
  | .loop kind step body _ => .loop kind step :: blockUses body
  | .attempt _ body handler final _ => blockUses body ++ clauseUses handler ++ clauseUses final

def blockUses : List Statement → List Use
  | [] => []
  | s :: rest => statementUses s ++ blockUses rest

def clausesUses : List Clause → List Use
  | [] => []
  | ⟨step, body⟩ :: rest => .test step :: (blockUses body ++ clausesUses rest)

def clauseUses : Option Clause → List Use
  | none => []
  | some ⟨_, body⟩ => blockUses body

end

structure Comes (steps calls : List Step) (u : Use) : Prop where
  step : u.step ∈ steps
  shown : ∀ i ∈ u.inputs, i ∈ u.step.shownInputs
  call : u.called → u.step ∈ calls

variable {steps calls : List Step} {u : Use}

theorem comes_more {more others : List Step} (comes : Comes steps calls u)
    (wider : (∀ s ∈ steps, s ∈ more) ∧ ∀ s ∈ calls, s ∈ others) : Comes more others u :=
  ⟨wider.1 _ comes.step, comes.shown, fun called => wider.2 _ (comes.call called)⟩

mutual

theorem statement_uses_come (s : Statement) : ∀ u ∈ statementUses s, Comes s.steps s.calls u := by
  cases s with
  | atomic step =>
    intro u member
    rw [statementUses, List.mem_singleton] at member
    subst member
    exact ⟨by simp [Statement.steps, Use.call], fun _ member => member, fun _ => by simp [Statement.calls, Use.call]⟩
  | «break» step | «continue» step | «return» step =>
    intro u member
    cases member
  | branch gate step body alternatives otherwise closing =>
    have first := block_uses_come body
    have second := clauses_uses_come alternatives
    have third := clause_uses_come otherwise
    intro u member
    rw [statementUses, List.mem_cons, List.mem_append, List.mem_append] at member
    rw [Statement.steps, Statement.calls]
    rcases member with rfl | (member | member) | member
    · cases gate with
      | call => exact ⟨by simp [Use.gate, Use.call], fun _ member => member, fun _ => by simp [Use.gate, Use.call]⟩
      | comparison => exact ⟨by simp [Use.gate, Use.test], fun _ member => member, fun called => by cases called⟩
    · exact comes_more (first u member) (by simp +contextual)
    · exact comes_more (second u member) (by simp +contextual)
    · exact comes_more (third u member) (by simp +contextual)
  | loop kind step body closing =>
    have first := block_uses_come body
    intro u member
    rw [statementUses, List.mem_cons] at member
    rw [Statement.steps, Statement.calls]
    rcases member with rfl | member
    · refine ⟨by simp [Use.loop_step], ?_, fun called => ?_⟩
      · rw [Use.loop_step]
        exact Use.loop_inputs kind step
      · rw [if_pos ((Use.loop_called kind step).mp called), Use.loop_step]
        exact List.mem_cons_self
    · exact comes_more (first u member) (by simp +contextual)
  | attempt step body handler final closing =>
    have first := block_uses_come body
    have second := clause_uses_come handler
    have third := clause_uses_come final
    intro u member
    rw [statementUses, List.mem_append, List.mem_append] at member
    rw [Statement.steps, Statement.calls]
    rcases member with (member | member) | member
    · exact comes_more (first u member) (by simp +contextual)
    · exact comes_more (second u member) (by simp +contextual)
    · exact comes_more (third u member) (by simp +contextual)

theorem block_uses_come (block : List Statement) :
    ∀ u ∈ blockUses block, Comes (blockSteps block) (blockCalls block) u := by
  cases block with
  | nil =>
    intro u member
    cases member
  | cons s rest =>
    have first := statement_uses_come s
    have others := block_uses_come rest
    intro u member
    rw [blockUses, List.mem_append] at member
    rw [blockSteps, blockCalls]
    rcases member with member | member
    · exact comes_more (first u member) (by simp +contextual)
    · exact comes_more (others u member) (by simp +contextual)

theorem clauses_uses_come (clauses : List Clause) :
    ∀ u ∈ clausesUses clauses, Comes (clausesSteps clauses) (clausesCalls clauses) u := by
  cases clauses with
  | nil =>
    intro u member
    cases member
  | cons clause rest =>
    obtain ⟨step, body⟩ := clause
    have first := block_uses_come body
    have others := clauses_uses_come rest
    intro u member
    rw [clausesUses, List.mem_cons, List.mem_append] at member
    rw [clausesSteps, clausesCalls]
    rcases member with rfl | member | member
    · exact ⟨by simp [Use.test], fun _ member => member, fun called => by cases called⟩
    · exact comes_more (first u member) (by simp +contextual)
    · exact comes_more (others u member) (by simp +contextual)

theorem clause_uses_come (clause : Option Clause) :
    ∀ u ∈ clauseUses clause, Comes (clauseSteps clause) (clauseCalls clause) u := by
  cases clause with
  | none =>
    intro u member
    cases member
  | some clause =>
    obtain ⟨step, body⟩ := clause
    have first := block_uses_come body
    intro u member
    rw [clauseSteps, clauseCalls]
    exact comes_more (first u member) (by simp +contextual)

end

mutual

theorem loadable_readable : ∀ j : Json, loadable j → readable j
  | .null, _ | .bool _, _ | .str _, _ => rfl
  | .int _, loads => loads
  | .float _, loads => by cases loads
  | .arr items, loads => loadable_items_readable items loads
  | .obj ⟨fields⟩, loads => loadable_fields_readable fields loads

theorem loadable_items_readable : ∀ items : List Json, loadableItems items → readableItems items
  | [], _ => rfl
  | j :: rest, loads => by
    rw [loadableItems, Bool.and_eq_true] at loads
    rw [readableItems, Bool.and_eq_true]
    exact ⟨loadable_readable j loads.1, loadable_items_readable rest loads.2⟩

theorem loadable_fields_readable : ∀ fields : List (String × Json), loadableFields fields → readableFields fields
  | [], _ => rfl
  | (_, j) :: rest, loads => by
    rw [loadableFields, Bool.and_eq_true] at loads
    rw [readableFields, Bool.and_eq_true]
    exact ⟨loadable_readable j loads.1, loadable_fields_readable rest loads.2⟩

end

theorem loadable_fragment_readable {f : Fragment} (loads : loadableFragment f) :
    namedFragment f ∧ (f.tag.needsEvaluation = false → readable f.data) := by
  obtain ⟨tag, data⟩ := f
  cases tag with
  | text | other | element => exact ⟨rfl, fun _ => loadable_readable data loads⟩
  | globalVariable => exact ⟨rfl, fun known => by cases known⟩
  | flowVariable | parameter => exact ⟨loads, fun known => by cases known⟩
  | expression => cases loads

theorem loadable_operand_readable {fragments : List Fragment} (loads : ∀ f ∈ fragments, loadableFragment f) :
    (∀ f ∈ fragments, namedFragment f) ∧ ∀ j ∈ operandLiterals fragments, readable j := by
  refine ⟨fun f member => (loadable_fragment_readable (loads f member)).1, fun j member => ?_⟩
  unfold operandLiterals at member
  split at member
  · obtain ⟨f, kept, rfl⟩ := List.mem_map.mp member
    obtain ⟨inside, known⟩ := List.mem_filter.mp kept
    exact (loadable_fragment_readable (loads f inside)).2 (by simpa using known)
  · rename_i known
    match fragments with
    | [] => cases member
    | [f] =>
      cases List.mem_singleton.mp member
      exact (loadable_fragment_readable (loads f (by simp))).2 (by simpa using known)
    | _ :: _ :: _ => cases member

theorem loadable_input_readable {i : Input} (loads : loadableInput i) : readableInput i := by
  rw [loadableInput, Bool.and_eq_true] at loads
  rw [readableInput, namedInput, inputLiterals, Bool.and_eq_true, Bool.and_eq_true, List.all_eq_true]
  obtain ⟨name, loads⟩ := loads
  by_cases parsed : i.parse = some "json_str"
  · rw [if_pos parsed] at loads ⊢
    exact ⟨⟨name, by simp [parsed]⟩, by simpa using loadable_readable _ loads⟩
  · rw [if_neg parsed] at loads ⊢
    obtain ⟨named, literals⟩ := loadable_operand_readable (List.all_eq_true.mp loads)
    exact ⟨⟨name, by simpa [parsed] using named⟩, literals⟩

theorem loadable_variable_readable {v : Variable} (loads : loadableVariable v) : readableVariable v := by
  rw [loadableVariable, Bool.and_eq_true, List.all_eq_true] at loads
  obtain ⟨named, literals⟩ := loadable_operand_readable loads.2
  rw [readableVariable, namedVariable, Bool.and_eq_true, Bool.and_eq_true, List.all_eq_true, List.all_eq_true]
  exact ⟨⟨loads.1, named⟩, literals⟩

theorem never_readable {x : Float} (never : ¬0 < x) : readableTime x := by simp [readableTime, never]

theorem loadable_use_readable (c : Context) (comes : Comes steps calls u)
    (loads : LoadableStep u.step) (keys : ∀ s ∈ calls, loadableKey s.key) (line : u.step.line < 2 ^ 63)
    (count : u.step.options.retryCount < 2 ^ 63) : u.Readable c := by
  have inputs (i : Input) (member : i ∈ u.inputs) : namedInput i ∧ ∀ j ∈ inputLiterals i, readable j := by
    have reads := loadable_input_readable (loads.inputs i (comes.shown i member))
    rwa [readableInput, Bool.and_eq_true, List.all_eq_true] at reads
  constructor
  · exact ⟨fun i member => (inputs i member).1, loads.outputs, fun called => keys _ (comes.call called), line, count⟩
  · exact ⟨fun i member => (inputs i member).2, fun _ => never_readable loads.before,
      fun _ => never_readable loads.after, fun _ _ => never_readable loads.interval⟩

end Flowstep.Code
