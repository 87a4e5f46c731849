import Flowstep.Proofs.LineOrigins
import Flowstep.Proofs.MapText
import Flowstep.Proofs.Records

/-!
The units of a compiled project have files of different names, whatever processes and modules there are, in
whichever order, and whichever of them is run.
-/
namespace Flowstep.Flow

theorem steps_ascending (window : Window) (entries : List StepEntry) (line : Nat) (steps : List Step)
    (read : stepsFrom window line entries = .ok steps) :
    (∀ s ∈ steps, line ≤ s.line) ∧ steps.Pairwise (·.line < ·.line) := by
  induction entries generalizing line steps with
  | nil =>
    cases read
    exact ⟨by simp, .nil⟩
  | cons e rest ih =>
    rw [stepsFrom] at read
    split at read
    · obtain ⟨above, ascending⟩ := ih (line + 1) steps read
      exact ⟨fun s member => Nat.le_of_succ_le (above s member), ascending⟩
    · obtain ⟨first, single, read⟩ := bind_ok read
      obtain ⟨others, more, read⟩ := bind_ok read
      cases read
      obtain ⟨above, ascending⟩ := ih (line + 1) others more
      have here := (step_of_entry single).1
      refine ⟨List.forall_mem_cons.mpr ⟨Nat.le_of_eq here.symm, fun s member => Nat.le_of_succ_le (above s member)⟩,
        .cons (fun s member => ?_) ascending⟩
      rw [here]
      exact above s member

end Flowstep.Flow

namespace Flowstep.Project

open Code (LineMap)
open Flowstep.Flow (Tables Step)

structure UnitCode.Compiled (u : UnitCode) : Prop where
  digest : u.digest = Digest.ofText u.source
  ascending : u.breakpoints.Pairwise (· < ·)
  listed : ∀ n ∈ u.breakpoints, ∃ s ∈ u.steps, s.line = n
  mapped : u.category = .process → ∃ origins, u.lineMap = some (.ofOrigins origins) ∧
    ∀ e ∈ (LineMap.ofOrigins origins).forward, 0 < e.1 ∧ 0 < e.2
  unmapped : u.category = .module → u.lineMap = none

section Building

variable {settings : Settings} {tables : Tables} {globals : List String} {isEntry : Bool} {stem : String} {u : UnitEntry}
  {code : UnitCode} {calls : List Step}

theorem build_mapped (process : u.category = .process)
    (built : UnitCode.build settings tables globals isEntry stem u = .ok (code, calls)) :
    ∃ origins, code.lineMap = some (.ofOrigins origins) ∧
      ∀ e ∈ (LineMap.ofOrigins origins).forward, 0 < e.1 ∧ 0 < e.2 := by
  obtain ⟨_, lines, _, _, mapped, own⟩ :=
    build_origins process built
  refine ⟨lines.map Code.Line.origin, mapped, ?_⟩
  rintro ⟨g, f⟩ member
  rw [LineMap.of_origins_forward] at member
  have flows : f ∈ (lines.map Code.Line.origin).filterMap id := by
    rw [← Code.numbered_origins _ 1]
    exact List.mem_map_of_mem member
  rw [List.filterMap_map] at flows
  change f ∈ Code.origins lines at flows
  rw [own] at flows
  exact ⟨((Code.mem_numbered _ 1 g f).mp member).1, Flow.own_lines_positive flows⟩

theorem build_compiled (built : UnitCode.build settings tables globals isEntry stem u = .ok (code, calls)) :
    code.Compiled ∧ code.stem = stem ∧ code.category = u.category := by
  have whole := built
  unfold UnitCode.build at built
  cases kind : u.category with
  | module =>
    simp only [kind] at built
    cases built
    exact ⟨⟨rfl, .nil, by simp, fun other => (by simp at other), fun _ => rfl⟩, rfl, rfl⟩
  | process =>
    simp only [kind] at built
    obtain ⟨steps, stepsMade, built⟩ := bind_ok built
    obtain ⟨statements, _, built⟩ := bind_ok built
    obtain ⟨lines, _, built⟩ := bind_ok built
    have ordered := (Flow.steps_ascending _ _ _ _ (map_error_ok stepsMade)).2
    have mapped := build_mapped kind whole
    cases built
    refine ⟨⟨rfl, ?_, ?_, fun _ => mapped, fun other => (by simp at other)⟩, rfl, rfl⟩
    · exact List.pairwise_map.mpr (ordered.sublist List.filter_sublist)
    · intro n member
      obtain ⟨s, kept, rfl⟩ := List.mem_map.mp member
      exact ⟨_, List.mem_map_of_mem (List.mem_of_mem_filter kept), rfl⟩

end Building

def numberedStem (c : Category) (k : Nat) : String := c.word ++ toString k

variable {c : Category}

theorem numbered_stem_inj {d : Category} {k l : Nat} (same : numberedStem c k = numberedStem d l) : c = d ∧ k = l := by
  have chars := congrArg String.toList same
  rw [numberedStem, numberedStem, String.toList_append, String.toList_append, Script.nat_chars, Script.nat_chars] at chars
  have equal : c = d := by
    cases c <;> cases d <;> first | rfl | exact absurd (congrArg List.head? chars) (by simp [Category.word])
  subst equal
  have digits := List.append_cancel_left chars
  exact ⟨rfl, by rw [← Script.nat_digits k, digits, Script.nat_digits]⟩

theorem numbered_stem_not_main {k : Nat} : numberedStem c k ≠ "main" := by
  intro same
  have chars := congrArg String.toList same
  rw [numberedStem] at chars
  cases c <;> simp [Category.word] at chars

def Flat (stem : String) : Prop := '/' ∉ stem.toList

theorem numbered_stem_flat (k : Nat) : Flat (numberedStem c k) := by
  have digits : '/' ∉ Nat.toDigits 10 k := fun member => absurd (Script.digit_chars k '/' member) (by decide)
  rw [Flat, numberedStem, String.toList_append, Script.nat_chars, List.mem_append, not_or]
  refine ⟨?_, digits⟩
  cases c <;> decide

def tally (processes modules : Nat) : Category → Nat
  | .process => processes
  | .module => modules

def Stemmed (entry : String) (counts : Category → Nat) (e : String × UnitCode) : Prop :=
  (e.1 = entry ∧ e.2.stem = "main") ∨ (e.1 ≠ entry ∧ ∃ k ≤ counts e.2.category, e.2.stem = numberedStem e.2.category k)

variable {entry : String} {counts : Category → Nat} {e : String × UnitCode}

theorem stemmed_flat (stemmed : Stemmed entry counts e) : Flat e.2.stem := by
  rcases stemmed with ⟨_, main⟩ | ⟨_, k, _, numbered⟩
  · rw [main, Flat]
    decide
  · rw [numbered]
    exact numbered_stem_flat k

structure Assigned (entry : String) (counts : Category → Nat) (units : Dict UnitCode) : Prop where
  ascending : units.Ascending
  compiled : ∀ e ∈ units.entries, e.2.Compiled
  stemmed : ∀ e ∈ units.entries, Stemmed entry counts e
  distinct : ∀ e ∈ units.entries, ∀ f ∈ units.entries, e.2.stem = f.2.stem → e.1 = f.1

def Next (entry : String) (counts : Category → Nat) (e : String × UnitCode) : Prop :=
  (e.1 = entry ∧ e.2.stem = "main") ∨ (e.1 ≠ entry ∧ e.2.stem = numberedStem e.2.category (counts e.2.category + 1))

theorem next_stem_fresh {f : String × UnitCode} (next : Next entry counts e) (old : Stemmed entry counts f)
    (other : f.1 ≠ e.1) : f.2.stem ≠ e.2.stem := by
  intro same
  rcases old with ⟨isEntry, main⟩ | ⟨_, k, bound, numbered⟩
  · rcases next with ⟨alsoEntry, _⟩ | ⟨_, fresh⟩
    · exact other (isEntry.trans alsoEntry.symm)
    · exact numbered_stem_not_main (fresh.symm.trans (same.symm.trans main))
  · rcases next with ⟨_, main⟩ | ⟨_, fresh⟩
    · exact numbered_stem_not_main (numbered.symm.trans (same.trans main))
    · obtain ⟨sort, number⟩ := numbered_stem_inj (numbered.symm.trans (same.trans fresh))
      rw [sort] at bound
      omega

theorem placed_insert {before after : Category → Nat} {units : Dict UnitCode} {id : String} {code : UnitCode}
    (placed : Assigned entry before units) (fresh : units.contains id = false) (compiled : code.Compiled)
    (next : Next entry before (id, code)) (grows : ∀ c, before c ≤ after c)
    (counted : before code.category < after code.category) : Assigned entry after (units.insert id code) := by
  have other : ∀ e ∈ units.entries, e.1 ≠ id := by
    intro e member same
    rw [Dict.contains, Option.isSome_eq_false_iff, Option.isNone_iff_eq_none, Dict.get?, List.lookup_eq_none_iff] at fresh
    simpa [same] using fresh e member
  have kept : ∀ e ∈ units.entries, Stemmed entry after e := by
    intro e member
    rcases placed.stemmed e member with main | ⟨notEntry, k, bound, numbered⟩
    · exact .inl main
    · exact .inr ⟨notEntry, k, Nat.le_trans bound (grows _), numbered⟩
  have own : ∀ e ∈ (units.insert id code).entries, e = (id, code) ∨ e ∈ units.entries :=
    fun e member => Dict.mem_insert_entry id code units.entries e member
  constructor
  · exact Dict.insert_ascending placed.ascending id code
  · intro e member
    rcases own e member with rfl | old
    · exact compiled
    · exact placed.compiled e old
  · intro e member
    rcases own e member with rfl | old
    · rcases next with main | ⟨notEntry, numbered⟩
      · exact .inl main
      · exact .inr ⟨notEntry, _, counted, numbered⟩
    · exact kept e old
  · intro e member f memberToo same
    rcases own e member with rfl | old
    · rcases own f memberToo with rfl | oldToo
      · rfl
      · exact absurd same.symm (next_stem_fresh next (placed.stemmed f oldToo) (other f oldToo))
    · rcases own f memberToo with rfl | oldToo
      · exact absurd same (next_stem_fresh next (placed.stemmed e old) (other e old))
      · exact placed.distinct e old f oldToo same

def Titled (titles : Dict (Dict String)) : Prop := titles.Ascending ∧ ∀ t ∈ titles.values, t.Ascending

theorem add_titles_titled {titles : Dict (Dict String)} (titled : Titled titles) (s : Step) : Titled (addTitles titles s) := by
  have start : (titles.getD s.key ∅).Ascending := by
    rw [Dict.getD]
    cases found : titles.get? s.key with
    | none => exact Dict.empty_ascending
    | some t =>
      obtain ⟨front, back, split, _⟩ := List.lookup_eq_some_iff.mp found
      refine titled.2 t ?_
      rw [Dict.values, split]
      simp
  have names := Dict.fold_ascending (fun (d : Dict String) (i : Flow.Input) => d.insert i.name i.title)
    (fun d i ascending => Dict.insert_ascending ascending i.name i.title)
    (s.shownInputs.filter fun i => !Text.startsWith i.name "__") _ start
  refine ⟨Dict.insert_ascending titled.1 _ _, fun t member => ?_⟩
  obtain ⟨e, inside, rfl⟩ := List.mem_map.mp member
  rcases Dict.mem_insert_entry _ _ _ _ inside with rfl | old
  · exact names
  · exact titled.2 e.2 (List.mem_map_of_mem old)

theorem all_titles_titled (calls : List Step) (titles : Dict (Dict String)) (titled : Titled titles) :
    Titled (calls.foldl addTitles titles) := by
  induction calls generalizing titles with
  | nil => exact titled
  | cons s rest ih => exact ih _ (add_titles_titled titled s)

theorem build_units_placed {settings : Settings} {tables : Tables} {globals : List String} {entry : String}
    {entries : List UnitEntry} (processes modules : Nat) (units : Dict UnitCode) (titles : Dict (Dict String))
    {result : Dict UnitCode × Dict (Dict String)} (placed : Assigned entry (tally processes modules) units)
    (titled : Titled titles)
    (built : buildUnits settings tables globals entry processes modules units titles entries = .ok result) :
    (∃ counts, Assigned entry counts result.1) ∧ Titled result.2 := by
  induction entries generalizing processes modules units titles with
  | nil =>
    cases built
    exact ⟨⟨_, placed⟩, titled⟩
  | cons u rest ih =>
    obtain ⟨⟨code, calls⟩, unitBuilt, built⟩ := bind_ok built
    obtain ⟨compiled, stem, category⟩ := build_compiled (map_error_ok unitBuilt)
    dsimp only at built
    split at built
    · cases built
    rename_i fresh
    refine ih _ _ _ _ (placed_insert placed (by simpa using fresh) compiled ?_ ?_ ?_) (all_titles_titled calls titles titled) built
    · have number : (if u.category == .process then if u.category == .process then processes + 1 else processes
          else if u.category == .module then modules + 1 else modules) = tally processes modules code.category + 1 := by
        rw [category]
        cases u.category <;> rfl
      rw [number, stemOf] at stem
      by_cases isEntry : u.id = entry
      · exact .inl ⟨isEntry, by rw [stem, if_pos (beq_iff_eq.mpr isEntry)]⟩
      · exact .inr ⟨isEntry, by rw [stem, if_neg (by simpa using isEntry), numberedStem, category]⟩
    · intro c
      cases kind : u.category <;> cases c <;> simp [tally]
    · rw [category]
      cases kind : u.category <;> simp [tally]

structure Bundle.Compiled (b : Bundle) : Prop where
  ascending : b.units.Ascending
  units : ∀ u ∈ b.units.values, u.Compiled
  flat : ∀ u ∈ b.units.values, Flat u.stem
  distinct : (b.units.values.map (·.stem)).Nodup
  globals : b.globals.Ascending
  titled : Titled b.titles

theorem placed_stems_distinct {units : Dict UnitCode} (placed : Assigned entry counts units) :
    (units.values.map (·.stem)).Nodup := by
  rw [Dict.values, List.map_map, List.Nodup, List.pairwise_map]
  refine placed.ascending.imp_of_mem ?_
  intro e f member memberToo less same
  exact String.lt_irrefl _ (placed.distinct e member f memberToo same ▸ less)

theorem bundle_compiled {settings : Settings} {tables : Tables} {d : Document} {b : Bundle}
    (built : d.build settings tables = .ok b) : b.Compiled := by
  obtain ⟨_, unitsBuilt, _, globals⟩ := build_parts built
  have empty (e : String × UnitCode) : e ∉ (∅ : Dict UnitCode).entries := List.not_mem_nil
  have none : Assigned b.entry (tally 0 0) ∅ := ⟨Dict.empty_ascending, fun e member => absurd member (empty e),
    fun e member => absurd member (empty e), fun e member => absurd member (empty e)⟩
  obtain ⟨⟨counts, placed⟩, titled⟩ :=
    build_units_placed _ _ _ _ none
      ⟨Dict.empty_ascending, fun t member => absurd member List.not_mem_nil⟩ unitsBuilt
  have entries {holds : UnitCode → Prop} (each : ∀ e ∈ b.units.entries, holds e.2) : ∀ u ∈ b.units.values, holds u := by
    intro u member
    obtain ⟨e, inside, rfl⟩ := List.mem_map.mp member
    exact each e inside
  exact ⟨placed.ascending, entries placed.compiled, entries fun e member => stemmed_flat (placed.stemmed e member),
    placed_stems_distinct placed, globals ▸ Dict.of_list_ascending _, titled⟩

end Flowstep.Project
