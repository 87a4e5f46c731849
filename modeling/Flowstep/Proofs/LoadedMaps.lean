import Flowstep.Proofs.MapText
import Mathlib.Data.List.Induction

/-!
A line map that is read from a text, seen from both sides.
-/
namespace Flowstep.Code.LineMap

theorem lookup_insert_forward (k g f : Nat) (entries : List (Nat × Nat)) :
    (insertForward g f entries).lookup k = if k = g then some f else entries.lookup k := by
  induction entries with
  | nil => exact lookup_first k g f []
  | cons e rest ih =>
    obtain ⟨g', f'⟩ := e
    unfold insertForward
    split
    · exact lookup_first k g f ((g', f') :: rest)
    · split
      · rename_i same
        simp only [lookup_first, same]
        split <;> rfl
      · rename_i different
        simp only [lookup_first, ih]
        split
        · rename_i here
          rw [if_neg fun same => different (same.symm.trans here)]
        · rfl

variable {g f : Nat} {entries : List (Nat × Nat)} {e : Nat × Nat}

theorem insert_forward_ascending (g f : Nat) (ascending : entries.Pairwise (·.1 < ·.1)) :
    (insertForward g f entries).Pairwise (·.1 < ·.1) := by
  have keys : (insertForward g f entries).map Prod.fst = insertLine g (entries.map Prod.fst) := by
    fun_induction insertForward g f entries <;> grind [insertLine]
  exact ascending_of_keys g keys ascending

structure Ordered (m : LineMap) : Prop where
  forward : m.forward.Pairwise (·.1 < ·.1)
  backward : m.backward.Pairwise (·.1 < ·.1)
  lines : ∀ f, (m.programLines f).Pairwise (· < ·)
  filled : ∀ e ∈ m.backward, e.2 ≠ []

variable {m n : LineMap}

theorem ordered_insert (ordered : Ordered m) (g f : Nat) : Ordered (m.insert g f) where
  forward := insert_forward_ascending g f ordered.forward
  backward := insert_backward_ascending g f ordered.backward
  lines other := by
    rw [program_lines_inserted ordered.backward]
    split
    · exact insert_line_ascending g (ordered.lines f)
    · exact ordered.lines other
  filled e member := by
    rcases mem_insert_backward e member with ⟨-, filled⟩ | old
    · exact filled
    · exact ordered.filled e old

theorem mem_forward (ordered : Ordered m) (g f : Nat) : (g, f) ∈ m.forward ↔ m.flowLine? g = some f :=
  (lookup_of_distinct (ordered.forward.imp Nat.ne_of_lt) g f).symm

theorem mem_backward (ordered : Ordered m) (f : Nat) (lines : List Nat) :
    (f, lines) ∈ m.backward ↔ m.programLines f = lines ∧ lines ≠ [] := by
  rw [← lookup_of_distinct (ordered.backward.imp Nat.ne_of_lt), programLines]
  constructor
  · intro found
    rw [found]
    exact ⟨rfl, ordered.filled _ ((lookup_of_distinct (ordered.backward.imp Nat.ne_of_lt) f lines).mp found)⟩
  · rintro ⟨rfl, filled⟩
    cases found : m.backward.lookup f with
    | none => simp [found] at filled
    | some lines => rfl

theorem ascending_ext {α : Type} {key : α → Nat} {xs ys : List α} (first : xs.Pairwise (key · < key ·))
    (second : ys.Pairwise (key · < key ·)) (same : ∀ x, x ∈ xs ↔ x ∈ ys) : xs = ys := by
  have distinct {zs : List α} (ascending : zs.Pairwise (key · < key ·)) : zs.Nodup :=
    ascending.imp fun {x y} less (same : x = y) => Nat.lt_irrefl _ (same ▸ less)
  refine ((List.perm_ext_iff_of_nodup (distinct first) (distinct second)).mpr same).eq_of_pairwise ?_ first second
  exact fun x y _ _ less more => absurd less (Nat.lt_asymm more)

theorem ordered_ext (first : Ordered m) (second : Ordered n) (forth : ∀ g, m.flowLine? g = n.flowLine? g)
    (back : ∀ f g, g ∈ m.programLines f ↔ g ∈ n.programLines f) : m = n := by
  have lines (f : Nat) : m.programLines f = n.programLines f := ascending_ext (first.lines f) (second.lines f) (back f)
  have forward : m.forward = n.forward := ascending_ext first.forward second.forward fun ⟨g, f⟩ => by
    rw [mem_forward first, mem_forward second, forth]
  have backward : m.backward = n.backward := ascending_ext first.backward second.backward fun ⟨f, gs⟩ => by
    rw [mem_backward first, mem_backward second, lines]
  cases m
  cases n
  cases forward
  cases backward
  rfl

variable {pairs : List (Nat × Nat)}

theorem of_pairs_snoc (pairs : List (Nat × Nat)) (e : Nat × Nat) : ofPairs (pairs ++ [e]) = (ofPairs pairs).insert e.1 e.2 := by
  simp [ofPairs]

theorem of_pairs_ordered (pairs : List (Nat × Nat)) : Ordered (ofPairs pairs) := by
  induction pairs using List.reverseRecOn with
  | nil => exact ⟨.nil, .nil, fun _ => .nil, by simp [ofPairs]⟩
  | append_singleton pairs e ih =>
    rw [of_pairs_snoc]
    exact ordered_insert ih e.1 e.2

theorem of_pairs_flow_line (pairs : List (Nat × Nat)) (g : Nat) : (ofPairs pairs).flowLine? g = pairs.reverse.lookup g := by
  induction pairs using List.reverseRecOn with
  | nil => rfl
  | append_singleton pairs e ih =>
    rw [of_pairs_snoc, List.reverse_append, List.reverse_singleton, List.singleton_append, lookup_first, ← ih]
    exact lookup_insert_forward g e.1 e.2 _

theorem of_pairs_program_lines (pairs : List (Nat × Nat)) (g f : Nat) :
    g ∈ (ofPairs pairs).programLines f ↔ (g, f) ∈ pairs := by
  induction pairs using List.reverseRecOn with
  | nil => simp [ofPairs, programLines]
  | append_singleton pairs e ih =>
    rw [of_pairs_snoc, program_lines_inserted (of_pairs_ordered pairs).backward, List.mem_append, List.mem_singleton, ← ih,
      Prod.ext_iff]
    split
    · rename_i same
      subst same
      simp [mem_insert_line, or_comm]
    · rename_i different
      simp [different]

def Functional (pairs : List (Nat × Nat)) : Prop := ∀ a ∈ pairs, ∀ b ∈ pairs, a.1 = b.1 → a.2 = b.2

theorem flow_line_listed (found : (ofPairs pairs).flowLine? g = some f) : (g, f) ∈ pairs := by
  rw [of_pairs_flow_line] at found
  obtain ⟨front, back, split, -⟩ := List.lookup_eq_some_iff.mp found
  exact List.mem_reverse.mp (by simp [split])

theorem functional_iff : (∀ g f, (ofPairs pairs).flowLine? g = some f ↔ g ∈ (ofPairs pairs).programLines f) ↔
    Functional pairs := by
  constructor
  · rintro agree ⟨g, f⟩ first ⟨g', f'⟩ second same
    subst same
    rw [← of_pairs_program_lines, ← agree] at first second
    exact Option.some.inj (first.symm.trans second)
  · intro functional g f
    rw [of_pairs_program_lines]
    refine ⟨flow_line_listed, fun listed => ?_⟩
    cases found : (ofPairs pairs).flowLine? g with
    | none =>
      rw [of_pairs_flow_line, List.lookup_eq_none_iff] at found
      simpa using found (g, f) (List.mem_reverse.mpr listed)
    | some f' => exact congrArg some (functional (g, f') (flow_line_listed found) (g, f) listed rfl)

theorem read_nat_below {s : String} {n : Nat} (read : Decimal.readNat64? s = some n) : n < UInt64.size := by
  unfold Decimal.readNat64? at read
  grind

theorem read_pair_fits {s : String} (read : readPair? s = some e) : Fits e := by
  simp only [readPair?, Option.bind_eq_bind, Option.bind_eq_some_iff] at read
  obtain ⟨⟨first, second⟩, -, g, left, f, right, positive⟩ := read
  split at positive
  · rename_i both
    cases positive
    exact ⟨⟨both.1, read_nat_below left⟩, both.2, read_nat_below right⟩
  · cases positive

def listed (text : String) : List (Nat × Nat) :=
  (((Text.splitBy "," text).map Text.trim).filter (!·.isEmpty)).filterMap readPair?

theorem add_entries_read {entries : List String} {start : LineMap} (read : addEntries start entries = .ok m) :
    m = (entries.filterMap readPair?).foldl (fun m e => m.insert e.1 e.2) start := by
  induction entries generalizing start with
  | nil => exact (Except.ok.inj read).symm
  | cons e rest ih =>
    rw [addEntries] at read
    split at read
    · rename_i g f pair
      rw [List.filterMap_cons_some pair]
      exact ih read
    · cases read

variable {text : String}

theorem parse_listed (loaded : parse text = .ok m) : m = ofPairs (listed text) := add_entries_read loaded

theorem listed_fit (text : String) : ∀ e ∈ listed text, Fits e := by
  intro e member
  obtain ⟨s, -, read⟩ := List.mem_filterMap.mp member
  exact read_pair_fits read

theorem written_map_read (fits : ∀ e ∈ pairs, Fits e) :
    parse (ofPairs pairs).render = .ok (ofPairs (ofPairs pairs).forward) := by
  refine parse_pairs fun ⟨g, f⟩ member => fits _ (flow_line_listed ?_)
  exact (mem_forward (of_pairs_ordered pairs) g f).mp member

theorem read_again_iff (fits : ∀ e ∈ pairs, Fits e) :
    parse (ofPairs pairs).render = .ok (ofPairs pairs) ↔ Functional pairs := by
  have ordered := of_pairs_ordered pairs
  have lines (g f : Nat) : g ∈ (ofPairs (ofPairs pairs).forward).programLines f ↔ (ofPairs pairs).flowLine? g = some f := by
    rw [of_pairs_program_lines, mem_forward ordered]
  rw [written_map_read fits, Except.ok.injEq, ← functional_iff]
  constructor
  · intro same g f
    rw [← lines, same]
  · intro agree
    refine ordered_ext (of_pairs_ordered _) ordered (fun g => ?_) fun f g => (lines g f).trans (agree g f)
    ext f
    have functional : Functional (ofPairs pairs).forward := by
      rintro ⟨g, f⟩ first ⟨g', f'⟩ second same
      subst same
      rw [mem_forward ordered] at first second
      exact Option.some.inj (first.symm.trans second)
    rw [functional_iff.mpr functional, lines]

-- A program line whose flow line is known is among the lines of that one. The other direction, and with it the reading of
-- what was written, holds exactly for texts that list no program line with two flow lines.
theorem loaded_map_agrees (text : String) (m : LineMap) (loaded : parse text = .ok m) :
    (∀ g f, m.flowLine? g = some f → g ∈ m.programLines f) ∧
      ((∀ g f, m.flowLine? g = some f ↔ g ∈ m.programLines f) ↔ Functional (listed text)) ∧
      (parse m.render = .ok m ↔ Functional (listed text)) ∧
      (Functional (listed text) → ∀ f g, m.firstProgramLine? f = some g → m.flowLine? g = some f) := by
  rw [parse_listed loaded]
  refine ⟨fun g f found => ?_, functional_iff, read_again_iff (listed_fit text), fun functional f g first => ?_⟩
  · exact (of_pairs_program_lines _ g f).mpr (flow_line_listed found)
  · exact (functional_iff.mpr functional g f).mpr (List.mem_of_mem_head? first)

theorem repeated_pairs_agree : ∃ m, parse "4:2, 3:1,,4:2,+6:1" = .ok m ∧ m.render = "3:1,4:2,6:1" ∧
    (∀ g f, m.flowLine? g = some f ↔ g ∈ m.programLines f) ∧ parse m.render = .ok m ∧
    m.firstProgramLine? 1 = some 3 ∧ m.flowLine? 3 = some 1 := by
  have functional : Functional (listed "4:2, 3:1,,4:2,+6:1") := by
    unfold Functional
    decide +kernel
  obtain ⟨m, loaded, written, first⟩ : ∃ m, parse "4:2, 3:1,,4:2,+6:1" = .ok m ∧ m.render = "3:1,4:2,6:1" ∧
      m.firstProgramLine? 1 = some 3 := ⟨_, rfl, by decide +kernel, by decide +kernel⟩
  obtain ⟨-, agrees, again, back⟩ := loaded_map_agrees _ m loaded
  exact ⟨m, loaded, written, agrees.mpr functional, again.mpr functional, first, back functional 1 3 first⟩

-- The later pair of a program line takes the place of the earlier one on one side only. A breakpoint on the first flow line
-- then sits on a program line of the second, and the map is not read again as it was.
theorem clashing_pairs_disagree : ∃ m, parse "1:1,1:2" = .ok m ∧ m.firstProgramLine? 1 = some 1 ∧ 1 ∈ m.programLines 1 ∧
    m.flowLine? 1 = some 2 ∧ parse m.render ≠ .ok m :=
  ⟨_, rfl, by decide +kernel, by decide +kernel, by decide +kernel, by decide +kernel⟩

theorem numbered_lines (lines : List Line) (g : Nat) :
    numbered g (lines.map (·.origin)) = (lines.zipIdx g).filterMap fun e => e.1.origin.map (e.2, ·) := by
  induction lines generalizing g with
  | nil => rfl
  | cons l rest ih =>
    rw [List.map_cons, List.zipIdx_cons]
    cases origin : l.origin with
    | none => rw [numbered, ih, List.filterMap_cons_none (by simp [origin])]
    | some f => rw [numbered, ih, List.filterMap_cons_some (b := (g, f)) (by simp [origin])]

theorem numbered_fits {lines : List Line} (sized : lines.length < UInt64.size)
    (words : ∀ l ∈ lines, ∃ n < UInt64.size, l.origin = Line.originOf n)
    (member : e ∈ numbered 1 (lines.map (·.origin))) : Fits e := by
  obtain ⟨positive, found⟩ := (mem_numbered _ 1 e.1 e.2).mp member
  rw [List.getElem?_map, Option.map_eq_some_iff] at found
  obtain ⟨l, place, origin⟩ := found
  obtain ⟨n, below, word⟩ := words l (List.mem_of_getElem? place)
  have inside := (List.getElem?_eq_some_iff.mp place).1
  rw [word, Line.originOf] at origin
  split at origin
  · cases origin
  · rename_i nonzero
    cases origin
    exact ⟨⟨positive, by omega⟩, Nat.pos_of_ne_zero nonzero, below⟩

theorem unit_map_read_again (lines : List Line) (sized : lines.length < UInt64.size)
    (words : ∀ l ∈ lines, ∃ n < UInt64.size, l.origin = Line.originOf n) :
    let m := ofLines lines
    parse m.render = .ok m ∧
      m.forward = ((lines.zipIdx 1).filterMap fun e => e.1.origin.map (e.2, ·)) ∧
      m.forward.Pairwise (·.1 < ·.1) ∧
      ∀ f, m.programLines f = (m.forward.filter (·.2 = f)).map Prod.fst ∧ (m.programLines f).Pairwise (· < ·) := by
  intro m
  have forward : m.forward = numbered 1 (lines.map (·.origin)) := of_origins_forward _
  have ascending : m.forward.Pairwise (·.1 < ·.1) := forward ▸ numbered_ascending _ 1
  have back (f : Nat) : m.programLines f = (m.forward.filter (·.2 = f)).map Prod.fst := by
    rw [forward]
    exact of_origins_program_lines _ f
  refine ⟨parse_render fun e member => ?_, forward.trans (numbered_lines lines 1), ascending, fun f => ⟨back f, ?_⟩⟩
  · exact numbered_fits sized words (forward ▸ member)
  · rw [back]
    exact List.pairwise_map.mpr (ascending.filter _)

theorem shared_origin_read_again :
    let m := ofLines [⟨0, "a()", some 3⟩, ⟨0, "pass", none⟩, ⟨0, "b()", some 1⟩, ⟨0, "c()", some 3⟩]
    m.render = "1:3,3:1,4:3" ∧ parse m.render = .ok m ∧ m.programLines 3 = [1, 4] := by
  have words : ∀ l ∈ [(⟨0, "a()", some 3⟩ : Line), ⟨0, "pass", none⟩, ⟨0, "b()", some 1⟩, ⟨0, "c()", some 3⟩],
      ∃ n < UInt64.size, l.origin = Line.originOf n := by
    simp only [List.forall_mem_cons]
    exact ⟨⟨3, by decide, rfl⟩, ⟨0, by decide, rfl⟩, ⟨1, by decide, rfl⟩, ⟨3, by decide, rfl⟩, by simp⟩
  obtain ⟨again, -, -, lines⟩ := unit_map_read_again _ (by decide) words
  exact ⟨by decide +kernel, again, (lines 3).1.trans (by decide +kernel)⟩

end Flowstep.Code.LineMap
