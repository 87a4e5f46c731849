import Flowstep.Proofs.Execution
import Flowstep.Proofs.Numbering
import Flowstep.Proofs.PlainCode

/-!
What the script of a flow is made of.
-/
namespace Flowstep.Code

open Flowstep.Flow (Step Statement Clause Gate LoopKind Variable blockSteps clausesSteps clauseSteps)
open Script (Expr Plain Rule Stmt StmtKind Target anyName)
open Script.Interp

inductive Bindable (steps : List Step) (name : String) : Prop where
  | marked (head : name.toList.head? = some '_')
  | usual (listed : name ∈ ["i", "item", "key", "value"])
  | output (s : Step) (inside : s ∈ steps) (given : name ∈ s.outputs.map (·.target))

def Sits (flowLine : Nat → Option Nat) (line : Nat) (lines : List Line) : Prop :=
  ∀ i f, (lines[i]?).bind Line.origin = some f → flowLine (line + i) = some f

section

variable {flowLine : Nat → Option Nat} {line : Nat}

theorem sits_append (front back : List Line) (sits : Sits flowLine line (front ++ back)) :
    Sits flowLine line front ∧ Sits flowLine (line + front.length) back := by
  constructor
  · intro i f origin
    refine sits i f ?_
    obtain ⟨l, found, _⟩ := Option.bind_eq_some_iff.mp origin
    rw [List.getElem?_append_left (List.getElem?_eq_some_iff.mp found).1]
    exact origin
  · intro i f origin
    rw [Nat.add_assoc]
    refine sits (front.length + i) f ?_
    rw [List.getElem?_append_right (Nat.le_add_right _ _), Nat.add_sub_cancel_left]
    exact origin

variable {l : Line} {rest : List Line}

theorem sits_rest (sits : Sits flowLine line (l :: rest)) : Sits flowLine (line + 1) rest :=
  (sits_append [l] rest sits).2

theorem sits_first {f : Nat} (origin : l.origin = some f)
    (sits : Sits flowLine line (l :: rest)) : flowLine line = some f := sits 0 f origin

end

theorem free_known : ∀ n ∈ usedNames, anyName n := fun _ _ => trivial

theorem free_reads {s : Step} : ∀ i ∈ s.shownInputs, ∀ n ∈ inputReads i, anyName n := fun _ _ _ _ => trivial

-- The rule is about the scripts of flows with these steps, when a call stands where the line map has the line of its step.
structure Suits {σ τ : Type} (r : Rule σ τ) (c : Context) (all : List Step) (flowLine : Nat → Option Nat) : Prop where
  plain : ∀ line e, Plain anyName e → r.fits line e
  report : ∀ line kind record, Plain anyName record → r.fits line (Context.reportExpr kind record)
  call : ∀ s ∈ all, ∀ line, flowLine line = some s.line → r.fits line (c.callExpr s)
  free : ∀ name, Bindable all name → r.free name
  table : r.changes (.name "gv")

section

variable {σ τ : Type} {r : Rule σ τ} {c : Context} {all : List Step} {flowLine : Nat → Option Nat} {line : Nat} {s : Step}

theorem plain_record {status : String} {extra : List (Expr × Expr)} (keys : ∀ e ∈ extra, Plain anyName e.1)
    (values : ∀ e ∈ extra, Plain anyName e.2) : Plain anyName (c.recordExpr s status extra) := by
  refine .dict _ ?_ ?_
  · rw [List.forall_mem_append]
    refine ⟨?_, keys⟩
    simpa using ⟨plain_text _, plain_text _, plain_text _, plain_text _⟩
  · rw [List.forall_mem_append]
    refine ⟨?_, values⟩
    simpa using ⟨plain_text _, plain_number _, plain_text _, plain_text _⟩

theorem plain_failure (s : Step) : Plain anyName (Context.failureExpr s).1 ∧ Plain anyName (Context.failureExpr s).2 :=
  ⟨plain_text _, plain_call_of free_known "str" (by decide) _ (by simpa using .name _ trivial)⟩

theorem closer_fits (closing : Option Step) : blockFits r (closerStmts line closing) := by
  cases closing <;> simp [closerStmts, blockFits, kindFits]

namespace Suits

variable (suits : Suits r c all flowLine)
include suits

theorem admits_name {name : String} (known : Bindable all name) : Admits r line (.name name) :=
  ⟨nofun, List.forall_mem_singleton.mpr (suits.free name known), nofun⟩

theorem admits_bound (inside : s ∈ all) : ∀ t ∈ c.boundTo s, Admits r line t := by
  intro t member
  obtain ⟨o, given, rfl⟩ := List.mem_map.mp member
  unfold Context.targetAt
  split
  · refine ⟨List.forall_mem_cons.mpr ⟨suits.plain _ _ (.name "gv" trivial), ?_⟩, nofun,
      List.forall_mem_singleton.mpr suits.table⟩
    exact List.forall_mem_singleton.mpr (suits.plain _ _ (plain_text _))
  · exact suits.admits_name (.output s inside (List.mem_map_of_mem given))

theorem handler (s : Step) (line : Nat) : handlerFits r (some (c.retryHandler s line)) := by
  have counter : Bindable all (Context.counterName s) := .marked (by simp [Context.counterName])
  have failed : Plain anyName (c.recordExpr s "error" [Context.failureExpr s]) :=
    plain_record (by simpa using (plain_failure s).1) (by simpa using (plain_failure s).2)
  have again : Plain anyName
      (c.recordExpr s "retry" [(textExpr "remaining", .name (Context.counterName s)), Context.failureExpr s]) :=
    plain_record (by simpa using ⟨plain_text _, (plain_failure s).1⟩) (by simpa using ⟨.name _ trivial, (plain_failure s).2⟩)
  have spent := suits.plain (line + 2) (.cmp .lt (.name (Context.counterName s)) (numberExpr 0))
    (.cmp _ _ _ (.name _ trivial) (plain_number 0))
  unfold Context.retryHandler Context.lastFailure
  simp only [handlerFits, block_fits_append, blockFits, kindFits, armsFit, suiteFits, and_true, Option.mem_some_iff,
    List.head?_cons, forall_eq']
  refine ⟨suits.free _ (.marked (by simp [Context.errorName])),
    ⟨⟨?_, ?_, suits.admits_name counter⟩, ⟨spent, spent, ?_, nofun⟩, ?_⟩, ?_⟩
  · exact suits.plain _ _ (.name _ trivial)
  · exact suits.plain _ _ (plain_number 1)
  · exact suits.report _ _ _ failed
  · exact suits.report _ _ _ again
  · split
    · rw [block_fits_one]
      exact suits.plain _ _ (plain_call_of free_known "sleep" (by decide) _ (by simpa using plain_seconds))
    · rw [blockFits]
      trivial

theorem retry (s : Step) (line after : Nat) {attempt : StmtKind} (fits : kindFits r (line + 4) attempt) :
    blockFits r (c.retryStmts s line after attempt) := by
  unfold Context.retryStmts
  simp only [blockFits, kindFits, suiteFits, and_true, List.forall_mem_singleton]
  refine ⟨suits.report _ _ _ (plain_record (by simp) (by simp)), ⟨suits.plain _ _ (plain_number _), ?_⟩,
    suits.plain _ _ (.lit _), fits, suits.handler s (after + 1)⟩
  exact suits.admits_name (.marked (by simp [Context.counterName]))

theorem call_kind (inside : s ∈ all) (here : flowLine line = some s.line) : kindFits r line (c.callKind s) := by
  have fits := suits.call s inside line here
  unfold Context.callKind
  split
  · rw [kindFits]
    exact fits
  · rw [kindFits]
    exact ⟨fits, suits.admits_bound inside⟩

variable {indent : Nat} {lines : List Line}

omit suits in
theorem retry_sits {statement : String} {more : List Line}
    (sits : Sits flowLine line (c.retryLines s indent statement ++ more)) : flowLine (line + 4) = some s.line :=
  sits 4 s.line rfl

theorem calls (inside : s ∈ all) (made : c.callLines s indent = .ok lines) (sits : Sits flowLine line lines) :
    blockFits r (c.callStmts s line) := by
  obtain ⟨call, _, made⟩ := bind_ok made
  unfold Context.callStmts
  by_cases again : c.retries s
  · rw [if_pos again] at made ⊢
    cases made
    rw [← List.append_nil (c.retryLines _ _ _)] at sits
    exact suits.retry s line _ (suits.call_kind inside (retry_sits sits))
  · rw [if_neg again] at made ⊢
    cases made
    rw [block_fits_one]
    exact suits.call_kind inside (sits_first rfl sits)

theorem before {name : String} {header : String → String} (inside : s ∈ all)
    (made : c.headerLines s indent name header = .ok lines) (sits : Sits flowLine line lines) :
    blockFits r (c.beforeBlock s name line) ∧ r.fits (line + c.beforeSpan s) (c.resultExpr s name) := by
  obtain ⟨call, _, made⟩ := bind_ok made
  unfold Context.beforeBlock Context.beforeSpan Context.resultExpr
  by_cases again : c.retries s
  · rw [if_pos again] at made
    simp only [if_pos again]
    cases made
    refine ⟨suits.retry s line _ ?_, suits.plain _ _ (.name _ trivial)⟩
    refine ⟨suits.call s inside _ (retry_sits sits), List.forall_mem_singleton.mpr (suits.admits_name ?_)⟩
    exact .marked (by simp [Context.resultName])
  · rw [if_neg again] at made
    simp only [if_neg again]
    cases made
    exact ⟨by rw [blockFits]; trivial, suits.call s inside _ (sits_first rfl sits)⟩

theorem gate {gate : Gate} (inside : s ∈ all) (made : c.branchLines gate s indent = .ok lines) (sits : Sits flowLine line lines) :
    blockFits r (c.gateStmts gate s line) ∧ r.fits (line + c.gateSpan gate s) (c.gateExpr gate s) := by
  cases gate with
  | call => exact suits.before inside made sits
  | comparison =>
    refine ⟨by rw [Context.gateStmts]; trivial, ?_⟩
    exact suits.plain _ _ (plain_comparison free_known s (free_reads) c)

theorem loop {kind : LoopKind} {body : List Stmt} (inside : s ∈ all) (made : c.loopLines kind s indent = .ok lines)
    (sits : Sits flowLine line lines) (fits : blockFits r body) :
    blockFits r (c.loopStmts kind s line) ∧ kindFits r (line + c.loopSpan kind s) (c.loopKind kind s body) := by
  have bound {line : Nat} : ∀ t ∈ c.boundTo s, Admits r line t := suits.admits_bound inside
  have usual {line : Nat} (name : String) (listed : name ∈ ["i", "item", "key", "value"]) : Admits r line (.name name) :=
    suits.admits_name (.usual listed)
  have loops {line : Nat} (targets : List Target) (admits : ∀ t ∈ targets, Admits r line t) (source : Expr)
      (plain : Plain anyName source) : kindFits r line (.forLoop targets source body) := by
    exact ⟨suits.plain _ _ plain, admits, fits⟩
  have none : blockFits r [] := by rw [blockFits]; trivial
  have list := plain_list free_known s (free_reads)
  cases kind with
  | «while» =>
    refine ⟨none, ?_⟩
    exact ⟨suits.plain _ _ (plain_comparison free_known s (free_reads) c), fits⟩
  | call =>
    obtain ⟨before, evaluates⟩ := suits.before inside made sits
    refine ⟨before, ?_⟩
    refine ⟨evaluates, ?_, fits⟩
    unfold Context.itemsBound
    split
    · exact List.forall_mem_singleton.mpr (suits.admits_name (.marked (by simp)))
    · exact bound
  | range =>
    refine ⟨none, loops _ ?_ _ (plain_range free_known s (free_reads))⟩
    cases targets : c.boundTo s with
    | nil => exact List.forall_mem_singleton.mpr (usual "i" (by decide))
    | cons t rest => exact List.forall_mem_singleton.mpr (bound t (by simp [targets]))
  | list =>
    refine ⟨none, ?_⟩
    unfold Context.loopKind
    dsimp only
    split
    · rename_i index item rest targets
      refine loops _ ?_ _ (plain_call_of free_known "enumerate" (by decide) _ (by simpa using list))
      simpa using ⟨bound index (by simp [targets]), bound item (by simp [targets])⟩
    · rename_i item targets
      exact loops _ (by simpa using bound item (by simp [targets])) _ list
    · exact loops _ (by simpa using usual "item" (by decide)) _ list
  | map =>
    refine ⟨none, ?_⟩
    have entries := plain_map free_known s (free_reads)
    unfold Context.loopKind
    dsimp only
    split
    · rename_i key value rest targets
      exact loops _ (by simpa using ⟨bound key (by simp [targets]), bound value (by simp [targets])⟩) _ entries
    · exact loops _ (by simpa using ⟨usual "key" (by decide), usual "value" (by decide)⟩) _ entries

end Suits

variable (r all flowLine c) in
def fittingMotive : Motive where
  statement _ s lines := s.steps ⊆ all → ∀ line, Sits flowLine line lines → blockFits r (translate c line s)
  all _ block lines := blockSteps block ⊆ all → ∀ line, Sits flowLine line lines → blockFits r (translateAll c line block)
  block _ block lines := blockSteps block ⊆ all → ∀ line, Sits flowLine line lines → blockFits r (translateBlock c line block)
  alternatives _ clauses lines := clausesSteps clauses ⊆ all → ∀ line, Sits flowLine line lines →
    armsFit r (translateAlternatives c line clauses)
  clause _ _ clause lines := clauseSteps clause ⊆ all → ∀ line, Sits flowLine line lines →
    suiteFits r (translateSuite c line clause) ∧ handlerFits r (translateHandler c line clause)

theorem fitting_kept (suits : Suits r c all flowLine) : (fittingMotive r c all flowLine).Kept c where
  atomic made listed line sits := by
    exact suits.calls (listed List.mem_cons_self) made sits
  «break» _ step _ line _ := by simp only [translate, blockFits, kindFits, and_self]
  «continue» _ step _ line _ := by simp only [translate, blockFits, kindFits, and_self]
  «return» _ step _ line _ := by simp [translate, blockFits, kindFits]
  branch indent closing headerMade bodyMade alternativesMade body alternatives otherwise listed line sits := by
    rw [Statement.steps, List.cons_subset, List.append_subset, List.append_subset, List.append_subset] at listed
    obtain ⟨own, ⟨⟨bodyListed, middleListed⟩, lastListed⟩, _⟩ := listed
    obtain ⟨sits, _⟩ := sits_append _ _ sits
    obtain ⟨sits, lastSits⟩ := sits_append _ _ sits
    obtain ⟨sits, middleSits⟩ := sits_append _ _ sits
    obtain ⟨headerSits, bodySits⟩ := sits_append _ _ sits
    simp only [List.length_append, c.branch_lines_length _ _ indent _ headerMade, emit_block_length bodyMade,
      emit_alternatives_length alternativesMade, ← Nat.add_assoc] at lastSits middleSits bodySits
    obtain ⟨before, evaluates⟩ := suits.gate own headerMade headerSits
    rw [translate]
    simp only [block_fits_append, block_fits_one, kindFits, List.head?_cons, Option.mem_some_iff, forall_eq']
    refine ⟨⟨before, evaluates, ⟨evaluates, body bodyListed _ bodySits, alternatives middleListed _ middleSits⟩, ?_⟩,
      closer_fits closing⟩
    exact (otherwise lastListed _ lastSits).1
  loop indent closing headerMade _ body listed line sits := by
    rw [Statement.steps, List.cons_subset, List.append_subset] at listed
    obtain ⟨sits, _⟩ := sits_append _ _ sits
    obtain ⟨headerSits, bodySits⟩ := sits_append _ _ sits
    simp only [c.loop_lines_length _ _ indent _ headerMade] at bodySits
    obtain ⟨before, repeats⟩ := suits.loop listed.1 headerMade headerSits (body listed.2.1 _ bodySits)
    rw [translate]
    simp only [block_fits_append, block_fits_one]
    exact ⟨⟨before, repeats⟩, closer_fits closing⟩
  attempt indent step handler final closing bodyMade handlerMade body caught last listed line sits := by
    rw [Statement.steps, List.cons_subset, List.append_subset, List.append_subset, List.append_subset] at listed
    obtain ⟨_, ⟨⟨bodyListed, handlerListed⟩, lastListed⟩, _⟩ := listed
    obtain ⟨sits, _⟩ := sits_append _ _ sits
    obtain ⟨sits, _⟩ := sits_append _ _ sits
    obtain ⟨sits, lastSits⟩ := sits_append _ _ sits
    obtain ⟨sits, handlerSits⟩ := sits_append _ _ sits
    have lines (k n : Nat) : line + (k + 1 + n) = line + 1 + k + n := by omega
    simp only [List.length_append, List.length_cons, emit_block_length bodyMade,
      emit_clause_length handlerMade] at lastSits handlerSits
    rw [lines] at lastSits
    refine ⟨⟨body bodyListed _ (sits_rest sits), ?_, ?_⟩, closer_fits closing⟩
    · exact (caught handlerListed _ (lines _ 0 ▸ handlerSits)).2
    · split
      · simp only [suiteFits, block_fits_one, kindFits]
      · exact (last lastListed _ lastSits).1
  nil _ _ line _ := by simp only [translateAll, blockFits]
  cons made first others listed line sits := by
    rw [blockSteps, List.append_subset] at listed
    obtain ⟨here, later⟩ := sits_append _ _ sits
    rw [emit_length made] at later
    rw [translateAll, block_fits_append]
    exact ⟨first listed.1 line here, others listed.2 _ later⟩
  empty _ _ line _ := by simp only [translateBlock, blockFits, kindFits, and_self]
  filled inside listed line sits := by
    have fits := inside listed line sits
    exact fits
  done _ _ line _ := by simp only [translateAlternatives, armsFit]
  elif indent _ bodyMade body others listed line sits := by
    rw [clausesSteps, List.append_subset, List.cons_subset] at listed
    obtain ⟨sits, othersSits⟩ := sits_append _ _ sits
    rw [List.length_cons, emit_block_length bodyMade, Nat.add_comm (blockSpan c _), ← Nat.add_assoc] at othersSits
    refine ⟨?_, body listed.1.2 _ (sits_rest sits), others listed.2 _ othersSits⟩
    exact suits.plain _ _ (plain_comparison free_known _ (free_reads) c)
  absent _ _ _ line _ := by simp only [translateSuite, translateHandler, suiteFits, handlerFits, and_self]
  present body listed line sits := by
    rw [clauseSteps, List.cons_subset] at listed
    have inside := body listed.2 _ (sits_rest sits)
    refine ⟨inside, fun name same => ?_, inside⟩
    cases same
    exact suits.free _ (.marked (by decide))

theorem flow_fits (suits : Suits r c all flowLine) {statements : List Statement} {indent : Nat} {lines : List Line}
    (listed : blockSteps statements ⊆ all) (made : emitAll c indent statements = .ok lines) (sits : Sits flowLine line lines) :
    blockFits r (translateAll c line statements) :=
  (fittingMotive r c all flowLine).all_emitted (fitting_kept suits) indent statements lines made listed line sits

theorem loads_fit (read : ∀ line (v : Variable), r.fits line (.call (.attr (.name "args") "get") [textExpr v.name, defaultExpr v] []))
    (line : Nat) {params : List Variable} (free : ∀ v ∈ params, r.free v.name) : blockFits r (loadStmts line params) := by
  induction params generalizing line with
  | nil => simp only [loadStmts, blockFits]
  | cons v rest ih =>
    rw [List.forall_mem_cons] at free
    exact ⟨⟨read line v, List.forall_mem_singleton.mpr
      ⟨List.forall_mem_nil _, List.forall_mem_singleton.mpr free.1, List.forall_mem_nil _⟩⟩,
      ih (line + 1) free.2⟩

end

end Flowstep.Code
