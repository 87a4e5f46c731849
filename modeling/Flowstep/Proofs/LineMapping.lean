import Flowstep.Code.LineMap

/-!
What a line map built from the origins of a program's lines holds, seen from both sides.
-/
namespace Flowstep.Code

def numbered (g : Nat) : List (Option Nat) → List (Nat × Nat)
  | [] => []
  | none :: rest => numbered (g + 1) rest
  | some f :: rest => (g, f) :: numbered (g + 1) rest

variable (origins : List (Option Nat))

theorem numbered_origins (g : Nat) : (numbered g origins).map Prod.snd = origins.filterMap id := by
  induction origins generalizing g with
  | nil => rfl
  | cons origin rest ih =>
    cases origin with
    | none => simpa [numbered] using ih (g + 1)
    | some f => simpa [numbered] using ih (g + 1)

theorem mem_numbered (g k f : Nat) : (k, f) ∈ numbered g origins ↔ g ≤ k ∧ origins[k - g]? = some (some f) := by
  induction origins generalizing g with
  | nil => simp [numbered]
  | cons origin rest ih =>
    have shifted : (g + 1 ≤ k ∧ rest[k - (g + 1)]? = some (some f)) ↔
        (g + 1 ≤ k ∧ (origin :: rest)[k - g]? = some (some f)) := by
      refine and_congr_right fun later => ?_
      have index : k - g = (k - (g + 1)) + 1 := by omega
      rw [index, List.getElem?_cons_succ]
    cases origin with
    | none =>
      rw [numbered, ih, shifted]
      constructor
      · rintro ⟨later, found⟩
        exact ⟨by omega, found⟩
      · rintro ⟨least, found⟩
        refine ⟨?_, found⟩
        rcases Nat.lt_or_eq_of_le least with later | same
        · exact later
        · subst same
          simp at found
    | some f' =>
      rw [numbered, List.mem_cons, ih, shifted]
      constructor
      · rintro (same | ⟨later, found⟩)
        · obtain ⟨rfl, rfl⟩ := Prod.mk.inj same
          exact ⟨Nat.le_refl _, by simp⟩
        · exact ⟨by omega, found⟩
      · rintro ⟨least, found⟩
        rcases Nat.lt_or_eq_of_le least with later | same
        · exact .inr ⟨later, found⟩
        · subst same
          simp only [Nat.sub_self, List.getElem?_cons_zero, Option.some.injEq] at found
          exact .inl (by rw [found])

theorem numbered_ascending (g : Nat) : (numbered g origins).Pairwise (·.1 < ·.1) := by
  induction origins generalizing g with
  | nil => exact .nil
  | cons origin rest ih =>
    cases origin with
    | none => exact ih (g + 1)
    | some f =>
      refine .cons ?_ (ih (g + 1))
      rintro ⟨k, f'⟩ member
      have later := ((mem_numbered rest (g + 1) k f').mp member).1
      exact later

variable {κ α : Type} [BEq κ] [LawfulBEq κ]

theorem lookup_first [DecidableEq κ] (k k' : κ) (a : α) (rest : List (κ × α)) :
    ((k', a) :: rest).lookup k = if k = k' then some a else rest.lookup k := by
  by_cases same : k = k'
  · simp [same]
  · have differs : (k == k') = false := by simpa using same
    rw [List.lookup_cons, differs, if_neg same]

theorem lookup_of_distinct {entries : List (κ × α)} (distinct : entries.Pairwise (·.1 ≠ ·.1))
    (k : κ) (a : α) : entries.lookup k = some a ↔ (k, a) ∈ entries := by
  classical
  induction entries with
  | nil => simp
  | cons entry rest ih =>
    obtain ⟨k', a'⟩ := entry
    obtain ⟨others, distinctRest⟩ := List.pairwise_cons.mp distinct
    rw [lookup_first, List.mem_cons, ← ih distinctRest]
    by_cases same : k = k'
    · have absent : rest.lookup k ≠ some a := fun found => others (k, a) ((ih distinctRest).mp found) same.symm
      simp [same, same ▸ absent, eq_comm]
    · simp [same]

namespace LineMap

theorem insert_forward_last (g f : Nat) {entries : List (Nat × Nat)} (below : ∀ e ∈ entries, e.1 < g) :
    insertForward g f entries = entries ++ [(g, f)] := by
  induction entries with
  | nil => rfl
  | cons e rest ih =>
    have less := below e (by simp)
    rw [insertForward, if_neg (by omega), if_neg (by omega), ih fun e member => below e (by simp [member])]
    rfl

variable {g : Nat}

theorem insert_line_last {lines : List Nat} (below : ∀ x ∈ lines, x < g) :
    insertLine g lines = lines ++ [g] := by
  induction lines with
  | nil => rfl
  | cons x rest ih =>
    have less := below x (by simp)
    rw [insertLine, if_neg (by omega), if_neg (by omega), ih fun x member => below x (by simp [member])]
    rfl

variable (line : Nat) (origins : List (Option Nat))

theorem mem_insert_line (other : Nat) (lines : List Nat) : other ∈ insertLine line lines ↔ other = line ∨ other ∈ lines := by
  induction lines with
  | nil => simp [insertLine]
  | cons head rest ih =>
    unfold insertLine
    split
    · exact List.mem_cons
    · split
      · rename_i same
        simp [same]
      · rw [List.mem_cons, List.mem_cons, ih]
        exact or_left_comm

theorem insert_line_ascending {lines : List Nat} (ascending : lines.Pairwise (· < ·)) :
    (insertLine line lines).Pairwise (· < ·) := by
  induction lines with
  | nil => exact List.pairwise_singleton _ _
  | cons head rest ih =>
    obtain ⟨above, ascendingRest⟩ := List.pairwise_cons.mp ascending
    unfold insertLine
    split
    · rename_i less
      exact .cons (List.forall_mem_cons.mpr ⟨less, fun other later => Nat.lt_trans less (above other later)⟩) ascending
    · split
      · rename_i same
        exact same ▸ ascending
      · refine .cons (fun other member => ?_) (ih ascendingRest)
        rcases (mem_insert_line line other rest).mp member with rfl | old
        · omega
        · exact above other old

theorem ascending_of_keys {α : Type} {entries after : List (Nat × α)}
    (keys : after.map Prod.fst = insertLine line (entries.map Prod.fst)) (ascending : entries.Pairwise (·.1 < ·.1)) :
    after.Pairwise (·.1 < ·.1) := by
  have placed := insert_line_ascending line (List.pairwise_map.mpr ascending)
  rw [← keys] at placed
  exact List.pairwise_map.mp placed

variable {entries : List (Nat × List Nat)}

theorem lookup_insert_backward (g f other : Nat) (ascending : entries.Pairwise (·.1 < ·.1)) :
    (insertBackward g f entries).lookup other =
      if other = f then some (insertLine g ((entries.lookup f).getD [])) else entries.lookup other := by
  induction entries with
  | nil => exact lookup_first other f [g] []
  | cons e rest ih =>
    obtain ⟨f', lines⟩ := e
    obtain ⟨above, ascendingRest⟩ := List.pairwise_cons.mp ascending
    unfold insertBackward
    split
    · rename_i less
      have missing : ((f', lines) :: rest).lookup f = none := by
        refine List.lookup_eq_none_iff.mpr (List.forall_mem_cons.mpr ⟨?_, fun e later => ?_⟩)
        · simpa using Nat.ne_of_lt less
        · simpa using Nat.ne_of_lt (Nat.lt_trans less (above e later))
      rw [lookup_first, missing]
      rfl
    · split
      · rename_i same
        subst same
        simp only [lookup_first]
        split <;> rfl
      · rename_i different
        simp only [lookup_first, ih ascendingRest]
        split
        · rename_i here
          rw [if_neg fun same => different (same.symm.trans here)]
        · rfl

variable {f : Nat}

theorem mem_insert_backward : ∀ e ∈ insertBackward g f entries, (e.1 = f ∧ e.2 ≠ []) ∨ e ∈ entries := by
  induction entries with
  | nil => simp [insertBackward]
  | cons head rest ih =>
    intro e member
    unfold insertBackward at member
    split at member
    · exact (List.mem_cons.mp member).imp_left fun atHead => by simp [atHead]
    · split at member
      · refine (List.mem_cons.mp member).imp (fun atHead => ?_) (List.mem_cons_of_mem _)
        subst atHead
        exact ⟨rfl, List.ne_nil_of_mem ((mem_insert_line g g _).mpr (.inl rfl))⟩
      · rcases List.mem_cons.mp member with rfl | later
        · exact .inr List.mem_cons_self
        · exact (ih e later).imp_right (List.mem_cons_of_mem _)

theorem insert_backward_ascending (g f : Nat) (ascending : entries.Pairwise (·.1 < ·.1)) :
    (insertBackward g f entries).Pairwise (·.1 < ·.1) := by
  have keys : (insertBackward g f entries).map Prod.fst = insertLine f (entries.map Prod.fst) := by
    fun_induction insertBackward g f entries <;> grind [insertLine]
  exact ascending_of_keys f keys ascending

theorem add_lines_forward (m : LineMap) (g : Nat) (below : ∀ e ∈ m.forward, e.1 < g) :
    (addLines m g origins).forward = m.forward ++ numbered g origins := by
  induction origins generalizing m g with
  | nil => simp [addLines, numbered]
  | cons origin rest ih =>
    cases origin with
    | none => exact ih m (g + 1) fun e member => Nat.lt_succ_of_lt (below e member)
    | some f =>
      have placed : (m.insert g f).forward = m.forward ++ [(g, f)] := insert_forward_last g f below
      rw [addLines, ih (m.insert g f) (g + 1), placed, numbered]
      · simp
      · intro e member
        rw [placed, List.mem_append, List.mem_singleton] at member
        rcases member with earlier | atEnd
        · exact Nat.lt_succ_of_lt (below e earlier)
        · rw [atEnd]
          exact Nat.lt_succ_self g

theorem program_lines_inserted {m : LineMap} (ascending : m.backward.Pairwise (·.1 < ·.1)) (g f other : Nat) :
    (m.insert g f).programLines other = if other = f then insertLine g (m.programLines f) else m.programLines other := by
  rw [programLines, LineMap.insert, lookup_insert_backward g f other ascending]
  split <;> rfl

theorem program_lines_insert {m : LineMap} (g f other : Nat) (ascending : m.backward.Pairwise (·.1 < ·.1))
    (below : ∀ x ∈ m.programLines other, x < g) :
    (m.insert g f).programLines other = m.programLines other ++ if f = other then [g] else [] := by
  rw [program_lines_inserted ascending]
  by_cases same : other = f
  · rw [if_pos same, if_pos same.symm, ← same, insert_line_last below]
  · rw [if_neg same, if_neg (Ne.symm same), List.append_nil]

theorem add_lines_program_lines (m : LineMap) (g f : Nat)
    (ascending : m.backward.Pairwise (·.1 < ·.1)) (below : ∀ other, ∀ x ∈ m.programLines other, x < g) :
    (addLines m g origins).programLines f =
      m.programLines f ++ ((numbered g origins).filter (·.2 = f)).map Prod.fst := by
  induction origins generalizing m g with
  | nil => simp [addLines, numbered]
  | cons origin rest ih =>
    cases origin with
    | none =>
      exact ih m (g + 1) ascending fun other x member => Nat.lt_succ_of_lt (below other x member)
    | some f' =>
      have step : ∀ other, (m.insert g f').programLines other =
          m.programLines other ++ if f' = other then [g] else [] :=
        fun other => program_lines_insert g f' other ascending (below other)
      rw [addLines, ih (m.insert g f') (g + 1) (insert_backward_ascending g f' ascending), step, numbered]
      · by_cases same : f' = f
        · simp [same]
        · simp [same]
      · intro other x member
        rw [step, List.mem_append] at member
        rcases member with earlier | atEnd
        · exact Nat.lt_succ_of_lt (below other x earlier)
        · by_cases same : f' = other
          · rw [if_pos same, List.mem_singleton] at atEnd
            rw [atEnd]
            exact Nat.lt_succ_self g
          · simp [same] at atEnd

theorem of_origins_forward : (ofOrigins origins).forward = numbered 1 origins := by
  simpa [ofOrigins] using add_lines_forward origins {} 1 (by simp)

theorem of_origins_program_lines (f : Nat) :
    (ofOrigins origins).programLines f = ((numbered 1 origins).filter (·.2 = f)).map Prod.fst := by
  simpa [ofOrigins, programLines] using
    add_lines_program_lines origins {} 1 f .nil (by simp [programLines])

theorem of_origins_flow_line (g f : Nat) : (ofOrigins origins).flowLine? g = some f ↔ (g, f) ∈ numbered 1 origins := by
  rw [flowLine?, of_origins_forward, lookup_of_distinct ((numbered_ascending origins 1).imp Nat.ne_of_lt)]

section Ascending

variable {origins : List (Option Nat)} (ascending : (origins.filterMap id).Pairwise (· < ·))

include ascending

theorem numbered_both_ascending :
    (numbered 1 origins).Pairwise fun a b => a.1 < b.1 ∧ a.2 < b.2 := by
  have flows : ((numbered 1 origins).map Prod.snd).Pairwise (· < ·) := by
    rw [numbered_origins]
    exact ascending
  exact (numbered_ascending origins 1).and (List.pairwise_map.mp flows)

theorem program_lines_own (mapped : (ofOrigins origins).flowLine? g = some f) :
    (ofOrigins origins).programLines f = [g] := by
  have member := (of_origins_flow_line origins g f).mp mapped
  rw [of_origins_program_lines]
  have distinct : (numbered 1 origins).Pairwise fun a b => a.2 ≠ b.2 :=
    (numbered_both_ascending ascending).imp fun pair => Nat.ne_of_lt pair.2
  obtain ⟨front, back, split⟩ := List.append_of_mem member
  rw [split, List.pairwise_append, List.pairwise_cons] at distinct
  obtain ⟨_, ⟨later, _⟩, earlier⟩ := distinct
  have frontEmpty : front.filter (fun e => decide (e.2 = f)) = [] := by
    rw [List.filter_eq_nil_iff]
    intro e found
    simpa using earlier e found (g, f) (by simp)
  have backEmpty : back.filter (fun e => decide (e.2 = f)) = [] := by
    rw [List.filter_eq_nil_iff]
    intro e found
    simpa using Ne.symm (later e found)
  rw [split, List.filter_append, List.filter_cons, frontEmpty, backEmpty]
  simp

end Ascending

theorem program_lines_other {origins : List (Option Nat)} (absent : f ∉ origins.filterMap id) :
    (ofOrigins origins).programLines f = [] := by
  rw [of_origins_program_lines, List.map_eq_nil_iff, List.filter_eq_nil_iff]
  intro e found same
  rw [decide_eq_true_eq] at same
  apply absent
  rw [← numbered_origins origins 1, ← same]
  exact List.mem_map_of_mem found

theorem flow_line_origin {origins : List (Option Nat)} (mapped : (ofOrigins origins).flowLine? g = some f) :
    f ∈ origins.filterMap id := by
  rw [← numbered_origins origins 1]
  exact List.mem_map_of_mem ((of_origins_flow_line origins g f).mp mapped)

theorem origin_flow_line {f : Nat} (member : f ∈ origins.filterMap id) : ∃ g, (ofOrigins origins).flowLine? g = some f := by
  rw [← numbered_origins origins 1, List.mem_map] at member
  obtain ⟨⟨g, f'⟩, found, same⟩ := member
  subst same
  exact ⟨g, (of_origins_flow_line origins g f').mpr found⟩

end LineMap

end Flowstep.Code
