import Flowstep.Code.Line

/-!
Texts put together from parts, as characters, and the parts found again.
-/
namespace Flowstep.Text

theorem join_with_cons (sep first second : String) (rest : List String) :
    joinWith sep (first :: second :: rest) = first ++ sep ++ joinWith sep (second :: rest) := by
  have shifted (front : String) : ∀ (parts : List String) (last : String),
      parts.foldl (fun text q => text ++ sep ++ q) (front ++ last) =
        front ++ parts.foldl (fun text q => text ++ sep ++ q) last := by
    intro parts
    induction parts with
    | nil => intro last; rfl
    | cons part parts ih =>
      intro last
      rw [List.foldl_cons, List.foldl_cons, String.append_assoc, String.append_assoc, ih,
        String.append_assoc]
  exact shifted (first ++ sep) rest second

theorem join_with_chars (sep : String) (parts : List String) :
    (joinWith sep parts).toList = sep.toList.intercalate (parts.map String.toList) := by
  induction parts with
  | nil => simp [joinWith]
  | cons first rest ih =>
    cases rest with
    | nil => simp [joinWith]
    | cons second rest =>
      rw [join_with_cons, String.toList_append, String.toList_append, ih, List.map_cons, List.map_cons,
        List.map_cons, List.intercalate_cons_cons]

theorem spaces_chars (count : Nat) : ("".pushn ' ' count).toList = List.replicate count ' ' := by
  induction count with
  | zero => rfl
  | succ count ih =>
    rw [String.pushn_eq_repeat_push, Nat.repeat, ← String.pushn_eq_repeat_push, String.toList_push, ih,
      List.replicate_succ']

def Plain (s : String) : Prop := '\n' ∉ s.toList

instance : DecidablePred Plain := fun s => inferInstanceAs (Decidable ('\n' ∉ s.toList))

@[simp] theorem plain_append (s t : String) : Plain (s ++ t) ↔ Plain s ∧ Plain t := by
  simp [Plain]

theorem plain_of_chars (cs : List Char) : Plain (String.ofList cs) ↔ '\n' ∉ cs := by
  rw [Plain, String.toList_ofList]

theorem plain_join_with {sep : String} (plain : Plain sep) (parts : List String) :
    Plain (joinWith sep parts) ↔ ∀ part ∈ parts, Plain part := by
  induction parts with
  | nil => simp [joinWith, Plain]
  | cons first rest ih =>
    cases rest with
    | nil => simp [joinWith]
    | cons second rest =>
      rw [join_with_cons, plain_append, plain_append, ih]
      simp [plain]

theorem separator_not_mem_piece (sep : Char) (cs piece : List Char) (cut : piece ∈ cs.splitOn sep) :
    sep ∉ piece := by
  induction cs generalizing piece with
  | nil =>
    rw [List.splitOn_nil, List.mem_singleton] at cut
    simp [cut]
  | cons c rest ih =>
    rw [List.splitOn_cons_eq_if_modifyHead] at cut
    by_cases here : c = sep
    · simp only [here, beq_self_eq_true, if_true, List.mem_cons] at cut
      rcases cut with rfl | later
      · simp
      · exact ih piece later
    · simp only [beq_eq_false_iff_ne.mpr here, Bool.false_eq_true, if_false] at cut
      obtain ⟨head, tail, split⟩ := List.exists_cons_of_ne_nil (List.splitOn_ne_nil sep rest)
      rw [split, List.modifyHead_cons, List.mem_cons] at cut
      rcases cut with rfl | later
      · have inner := ih head (by simp [split])
        simp [inner, Ne.symm here]
      · exact ih piece (by simp [split, later])

-- Cutting at line feeds undoes joining by them for parts that stand on one line each, and only for these.
theorem pieces_join_lines {parts : List String} (present : parts ≠ []) :
    pieces (joinWith "\n" parts) = parts ↔ ∀ part ∈ parts, Plain part := by
  have joined : (joinWith "\n" parts).toList = ['\n'].intercalate (parts.map String.toList) :=
    join_with_chars "\n" parts
  constructor
  · intro same part member
    rw [← same] at member
    obtain ⟨cs, cut, rfl⟩ := List.mem_map.mp member
    rw [plain_of_chars]
    exact separator_not_mem_piece _ _ cs cut
  · intro plain
    have kept : (['\n'].intercalate (parts.map String.toList)).splitOn '\n' = parts.map String.toList := by
      refine List.splitOn_intercalate '\n' ?_ (by simpa using present)
      intro cs member
      obtain ⟨part, inside, rfl⟩ := List.mem_map.mp member
      exact plain part inside
    rw [pieces, joined, kept]
    simp

end Flowstep.Text
