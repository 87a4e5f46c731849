import Flowstep.Proofs.Debugging
import Flowstep.Proofs.FailureLines
import Flowstep.Proofs.LoadedMaps
import Flowstep.Proofs.Stems
import Mathlib.Data.Finset.Basic

/-!
The breakpoints of a run as a set of flow lines.
-/
namespace Flowstep.Code.LineMap

theorem insert_lines (lines start : List Nat) (ascending : start.Pairwise (· < ·)) :
    (lines.foldl (fun s n => insertLine n s) start).Pairwise (· < ·) ∧
      ∀ line, line ∈ lines.foldl (fun s n => insertLine n s) start ↔ line ∈ lines ∨ line ∈ start := by
  induction lines generalizing start with
  | nil => exact ⟨ascending, by simp⟩
  | cons first rest ih =>
    obtain ⟨ordered, members⟩ := ih _ (insert_line_ascending first ascending)
    refine ⟨ordered, fun line => ?_⟩
    rw [List.foldl_cons, members, mem_insert_line, List.mem_cons]
    exact or_left_comm.trans or_assoc.symm

structure Paired (m : LineMap) : Prop where
  back : ∀ g f, m.flowLine? g = some f ↔ m.firstProgramLine? f = some g
  listed : ∀ f, f ∈ m.forward.map Prod.snd ↔ ∃ g, m.flowLine? g = some f

theorem origins_paired {origins : List (Option Nat)} (ascending : (origins.filterMap id).Pairwise (· < ·)) :
    Paired (ofOrigins origins) := by
  have forth (g f : Nat) (mapped : (ofOrigins origins).flowLine? g = some f) :
      (ofOrigins origins).firstProgramLine? f = some g := by
    rw [firstProgramLine?, program_lines_own ascending mapped]
    rfl
  refine ⟨fun g f => ⟨forth g f, fun first => ?_⟩, fun f => ?_⟩
  · by_cases member : f ∈ origins.filterMap id
    · obtain ⟨own, mapped⟩ := origin_flow_line origins member
      cases Option.some.inj (first.symm.trans (forth own f mapped))
      exact mapped
    · rw [firstProgramLine?, program_lines_other member] at first
      cases first
  · rw [of_origins_forward, numbered_origins]
    exact ⟨origin_flow_line origins, fun ⟨g, mapped⟩ => flow_line_origin mapped⟩

end Flowstep.Code.LineMap

namespace Flowstep.Project

open Code (LineMap)

def Bundle.lineMap? (bundle : Bundle) (unit : String) : Option LineMap := (bundle.units.get? unit).bind (·.lineMap)

def Bundle.mappedLines (bundle : Bundle) (unit : String) : List Nat :=
  ((bundle.lineMap? unit).map fun m => m.forward.map Prod.snd).getD []

theorem built_paired {settings : Settings} {tables : Flow.Tables} {d : Document} {bundle : Bundle}
    (built : d.build settings tables = .ok bundle) {unit : String} {m : LineMap} (mapped : bundle.lineMap? unit = some m) :
    m.Paired := by
  obtain ⟨code, held, own⟩ := Option.bind_eq_some_iff.mp mapped
  obtain ⟨front, back, split, -⟩ := List.lookup_eq_some_iff.mp held
  obtain ⟨u, -, -, stem, calls, unitBuilt⟩ := bundle_unit built unit code (by simp [split])
  cases kind : u.category with
  | module =>
    have compiled := build_compiled unitBuilt
    rw [compiled.1.unmapped (compiled.2.2.trans kind)] at own
    cases own
  | process =>
    obtain ⟨_, lines, _, _, made, origins⟩ := build_origins kind unitBuilt
    cases Option.some.inj (own.symm.trans made)
    refine LineMap.origins_paired ?_
    rw [List.filterMap_map]
    change (Code.origins lines).Pairwise _
    rw [origins]
    exact Flow.own_lines_ascending

end Flowstep.Project

namespace Flowstep.Run

open Code (LineMap)
open Project (Bundle Document Settings UnitCode bundle_compiled built_paired)

namespace Breakpoints

variable {b : Breakpoints}

def Paired (b : Breakpoints) : Prop := ∀ unit m, b.lineMap? unit = some m → m.Paired

theorem resolved_iff (paired : b.Paired) (unit : String) (f g : Nat) :
    b.resolve unit f = .ok g ↔ b.flowLine? unit g = some f := by
  unfold resolve flowLine?
  cases found : b.lineMap? unit with
  | none => simp
  | some m =>
    rw [Option.bind_some, (paired unit m found).back g f]
    dsimp only
    cases m.firstProgramLine? f with
    | none => simp
    | some first => simp

theorem line_unique (paired : b.Paired) {unit : String} {f g h : Nat} (first : b.flowLine? unit g = some f)
    (second : b.flowLine? unit h = some f) : g = h :=
  Except.ok.inj (((resolved_iff paired unit f g).mpr first).symm.trans ((resolved_iff paired unit f h).mpr second))

theorem lines_of_insert (b : Breakpoints) (unit other : String) (lines : List Nat) :
    { b with lines := b.lines.insert unit lines }.linesOf other = if other = unit then lines else b.linesOf other := by
  unfold linesOf Dict.getD
  split
  · rename_i same
    rw [same, Dict.get?_insert_self]
    rfl
  · rename_i different
    rw [Dict.get?_insert_of_ne _ different]

end Breakpoints

-- The flow lines of each unit that hold a breakpoint, as those who debug the project count them.
abbrev Flags := String → Finset Nat

def Flags.add (flags : Flags) (unit : String) (f : Nat) : Flags :=
  fun other => if other = unit then insert f (flags other) else flags other

def Flags.remove (flags : Flags) (unit : String) (f : Nat) : Flags :=
  fun other => if other = unit then (flags other).erase f else flags other

def Edit.count (b : Breakpoints) (flags : Flags) : Edit → Flags
  | .set unit f =>
    match b.set unit f with
    | .ok _ => flags.add unit f
    | .error _ => flags
  | .clear unit f =>
    match b.clear unit f with
    | .ok _ => flags.remove unit f
    | .error _ => flags

def Edit.both (s : Breakpoints × Flags) (e : Edit) : Breakpoints × Flags := (e.apply s.1, e.count s.1 s.2)

structure Shows (b : Breakpoints) (flags : Flags) : Prop where
  ascending : ∀ unit, (b.linesOf unit).Pairwise (· < ·)
  lines : ∀ unit g, g ∈ b.linesOf unit ↔ ∃ f ∈ flags unit, b.flowLine? unit g = some f
  mapped : ∀ unit, ∀ f ∈ flags unit, ∃ g, b.flowLine? unit g = some f

section

variable {b : Breakpoints} {flags : Flags} (shows : Shows b flags) {unit : String} {f g : Nat}

include shows

theorem held_iff (line : b.flowLine? unit g = some f) : g ∈ b.linesOf unit ↔ f ∈ flags unit := by
  rw [shows.lines]
  constructor
  · rintro ⟨own, member, mapped⟩
    exact Option.some.inj (line.symm.trans mapped) ▸ member
  · exact fun member => ⟨f, member, line⟩

theorem shows_absent (line : b.flowLine? unit g = some f) (absent : g ∉ b.linesOf unit) : Shows b (flags.remove unit f) := by
  have gone : flags.remove unit f = flags := by
    funext other
    rw [Flags.remove]
    split
    · rename_i same
      subst same
      exact Finset.erase_eq_of_notMem fun member => absent ((held_iff shows line).mpr member)
    · rfl
  rwa [gone]

theorem flow_lines_shown (unit : String) :
    (b.flowLines unit).Pairwise (· < ·) ∧ (b.flowLines unit).toFinset = flags unit := by
  obtain ⟨ordered, members⟩ := LineMap.insert_lines ((b.linesOf unit).filterMap (b.flowLine? unit)) [] .nil
  refine ⟨ordered, ?_⟩
  ext f
  rw [List.mem_toFinset, Breakpoints.flowLines, members, List.mem_filterMap]
  constructor
  · rintro (⟨g, held, line⟩ | absurd)
    · exact (held_iff shows line).mp held
    · cases absurd
  · intro flagged
    obtain ⟨g, line⟩ := shows.mapped unit f flagged
    exact .inl ⟨g, (held_iff shows line).mpr flagged, line⟩

variable (paired : b.Paired)

include paired

theorem shows_add (line : b.flowLine? unit g = some f) :
    Shows { b with lines := b.lines.insert unit (LineMap.insertLine g (b.linesOf unit)) } (flags.add unit f) := by
  refine ⟨fun other => ?_, fun other h => ?_, fun other own => ?_⟩
  · rw [Breakpoints.lines_of_insert]
    split
    · exact LineMap.insert_line_ascending g (shows.ascending unit)
    · exact shows.ascending other
  · rw [Breakpoints.lines_of_insert, Flags.add]
    split
    · rename_i same
      subst same
      rw [LineMap.mem_insert_line, shows.lines]
      constructor
      · rintro (rfl | ⟨own, member, mapped⟩)
        · exact ⟨f, Finset.mem_insert_self _ _, line⟩
        · exact ⟨own, Finset.mem_insert_of_mem member, mapped⟩
      · rintro ⟨own, member, mapped⟩
        rcases Finset.mem_insert.mp member with rfl | old
        · exact .inl (Breakpoints.line_unique paired mapped line)
        · exact .inr ⟨own, old, mapped⟩
    · exact shows.lines other h
  · rw [Flags.add]
    split
    · rename_i same
      subst same
      intro member
      rcases Finset.mem_insert.mp member with rfl | old
      · exact ⟨g, line⟩
      · exact shows.mapped other own old
    · exact shows.mapped other own

theorem shows_remove (line : b.flowLine? unit g = some f) :
    Shows { b with lines := b.lines.insert unit ((b.linesOf unit).erase g) } (flags.remove unit f) := by
  have distinct : (b.linesOf unit).Nodup := (shows.ascending unit).imp Nat.ne_of_lt
  refine ⟨fun other => ?_, fun other h => ?_, fun other own => ?_⟩
  · rw [Breakpoints.lines_of_insert]
    split
    · exact (shows.ascending unit).sublist List.erase_sublist
    · exact shows.ascending other
  · rw [Breakpoints.lines_of_insert, Flags.remove]
    split
    · rename_i same
      subst same
      rw [distinct.mem_erase_iff, shows.lines]
      constructor
      · rintro ⟨different, own, member, mapped⟩
        refine ⟨own, Finset.mem_erase.mpr ⟨?_, member⟩, mapped⟩
        rintro rfl
        exact different (Breakpoints.line_unique paired mapped line)
      · rintro ⟨own, member, mapped⟩
        obtain ⟨different, old⟩ := Finset.mem_erase.mp member
        refine ⟨?_, own, old, mapped⟩
        rintro rfl
        exact different (Option.some.inj (mapped.symm.trans line))
    · exact shows.lines other h
  · rw [Flags.remove]
    split
    · rename_i same
      exact fun member => shows.mapped other own (Finset.mem_of_mem_erase member)
    · exact shows.mapped other own

end

section

variable {b : Breakpoints} (paired : b.Paired) (unit : String) (f : Nat)

include paired

theorem set_cases :
    (∃ g, b.flowLine? unit g = some f ∧
      b.set unit f = .ok (g, { b with lines := b.lines.insert unit (LineMap.insertLine g (b.linesOf unit)) })) ∨
    (∀ g, b.flowLine? unit g ≠ some f) ∧ ∃ e, b.set unit f = .error e := by
  unfold Breakpoints.set
  cases found : b.resolve unit f with
  | ok g => exact .inl ⟨g, (Breakpoints.resolved_iff paired unit f g).mp found, rfl⟩
  | error e =>
    refine .inr ⟨fun g mapped => ?_, e, rfl⟩
    rw [(Breakpoints.resolved_iff paired unit f g).mpr mapped] at found
    cases found

theorem clear_cases :
    (∃ g, b.flowLine? unit g = some f ∧
      (g ∈ b.linesOf unit ∧
          b.clear unit f = .ok (true, { b with lines := b.lines.insert unit ((b.linesOf unit).erase g) }) ∨
        g ∉ b.linesOf unit ∧ b.clear unit f = .ok (false, b))) ∨
    (∀ g, b.flowLine? unit g ≠ some f) ∧ ∃ e, b.clear unit f = .error e := by
  unfold Breakpoints.clear
  cases found : b.resolve unit f with
  | ok g =>
    refine .inl ⟨g, (Breakpoints.resolved_iff paired unit f g).mp found, ?_⟩
    by_cases held : g ∈ b.linesOf unit
    · exact .inl ⟨held, if_pos (List.contains_iff_mem.mpr held)⟩
    · exact .inr ⟨held, if_neg fun listed => held (List.contains_iff_mem.mp listed)⟩
  | error e =>
    refine .inr ⟨fun g mapped => ?_, e, rfl⟩
    rw [(Breakpoints.resolved_iff paired unit f g).mpr mapped] at found
    cases found

end

variable {s : Breakpoints × Flags}

theorem both_shows (paired : s.1.Paired) (shows : Shows s.1 s.2) (e : Edit) :
    Shows (Edit.both s e).1 (Edit.both s e).2 := by
  unfold Edit.both Edit.apply Edit.count Breakpoints.trySet
  cases e with
  | set unit f =>
    rcases set_cases paired unit f with ⟨g, line, sets⟩ | ⟨-, e, fails⟩
    · simp only [sets]
      exact shows_add shows paired line
    · simp only [fails]
      exact shows
  | clear unit f =>
    rcases clear_cases paired unit f with ⟨g, line, ⟨-, clears⟩ | ⟨absent, clears⟩⟩ | ⟨-, e, fails⟩
    · simp only [clears]
      exact shows_remove shows paired line
    · simp only [clears]
      exact shows_absent shows line absent
    · simp only [fails]
      exact shows

theorem edits_told (paired : s.1.Paired) (shows : Shows s.1 s.2) (unit : String) (f : Nat) :
    ((∃ e, s.1.set unit f = .error e) ↔ ¬∃ g, s.1.flowLine? unit g = some f) ∧
    ((∃ e, s.1.clear unit f = .error e) ↔ ¬∃ g, s.1.flowLine? unit g = some f) ∧
    ((¬∃ g, s.1.flowLine? unit g = some f) → Edit.both s (.set unit f) = s ∧ Edit.both s (.clear unit f) = s) ∧
    ∀ there b, s.1.clear unit f = .ok (there, b) → (there = true ↔ f ∈ s.2 unit) := by
  unfold Edit.both Edit.apply Edit.count Breakpoints.trySet
  rcases set_cases paired unit f with ⟨g, line, sets⟩ | ⟨unmapped, e, fails⟩
  · have here : ∃ g, s.1.flowLine? unit g = some f := ⟨g, line⟩
    rcases clear_cases paired unit f with ⟨h, lineToo, ⟨held, clears⟩ | ⟨absent, clears⟩⟩ | ⟨unmapped, -⟩
    · have flagged := (held_iff shows lineToo).mp held
      simp [sets, clears, here, flagged]
    · have unflagged : f ∉ s.2 unit := fun flagged => absent ((held_iff shows lineToo).mpr flagged)
      simp [sets, clears, here, unflagged]
    · exact absurd line (unmapped g)
  · rcases clear_cases paired unit f with ⟨h, line, -⟩ | ⟨-, e', failsToo⟩
    · exact absurd line (unmapped h)
    · simp [fails, failsToo, unmapped]

theorem maps_paired {b c : Breakpoints} (same : c.maps = b.maps) (paired : b.Paired) : c.Paired := by
  unfold Breakpoints.Paired Breakpoints.lineMap? at *
  rwa [same]

theorem run_shows (paired : s.1.Paired) (shows : Shows s.1 s.2) (edits : List Edit) :
    Shows (edits.foldl Edit.both s).1 (edits.foldl Edit.both s).2 ∧ (edits.foldl Edit.both s).1.maps = s.1.maps := by
  induction edits generalizing s with
  | nil => exact ⟨shows, rfl⟩
  | cons e rest ih =>
    have same : (Edit.both s e).1.maps = s.1.maps := edit_maps s.1 e
    obtain ⟨later, maps⟩ := ih (maps_paired same paired) (both_shows paired shows e)
    exact ⟨later, maps.trans same⟩

def designEdits (bundle : Bundle) : List Edit := bundle.units.entries.flatMap fun e => e.2.breakpoints.map (.set e.1)

def designFlags (bundle : Bundle) : Flags := fun unit =>
  (((bundle.units.get? unit).map (·.breakpoints)).getD []).toFinset.filter (· ∈ bundle.mappedLines unit)

theorem of_bundle_edits (bundle : Bundle) :
    Breakpoints.ofBundle bundle = (designEdits bundle).foldl Edit.apply { maps := Breakpoints.mapsOf bundle } := by
  unfold Breakpoints.ofBundle designEdits
  rw [List.foldl_flatMap]
  congr 1
  funext b e
  rw [List.foldl_map]
  rfl

theorem both_table (edits : List Edit) (s : Breakpoints × Flags) :
    (edits.foldl Edit.both s).1 = edits.foldl Edit.apply s.1 := by
  induction edits generalizing s with
  | nil => rfl
  | cons e rest ih => exact ih (Edit.both s e)

theorem sets_counted (paired : s.1.Paired) {edits : List Edit} (sets : ∀ e ∈ edits, ∃ unit f, e = .set unit f)
    (unit : String) (f : Nat) :
    f ∈ (edits.foldl Edit.both s).2 unit ↔
      f ∈ s.2 unit ∨ .set unit f ∈ edits ∧ ∃ g, s.1.flowLine? unit g = some f := by
  induction edits generalizing s with
  | nil => simp
  | cons e rest ih =>
    obtain ⟨⟨own, h, rfl⟩, others⟩ := List.forall_mem_cons.mp sets
    have same : (Edit.both s (.set own h)).1.maps = s.1.maps := edit_maps s.1 _
    have lines (g : Nat) : (Edit.both s (.set own h)).1.flowLine? unit g = s.1.flowLine? unit g := by
      unfold Breakpoints.flowLine? Breakpoints.lineMap?
      rw [same]
    have counted : f ∈ (Edit.both s (.set own h)).2 unit ↔
        f ∈ s.2 unit ∨ (unit = own ∧ f = h) ∧ ∃ g, s.1.flowLine? unit g = some f := by
      unfold Edit.both Edit.count
      rcases set_cases paired own h with ⟨g, line, sets⟩ | ⟨none, e, fails⟩
      · simp only [sets, Flags.add]
        split
        · rename_i here
          subst here
          rw [Finset.mem_insert]
          constructor
          · rintro (rfl | old)
            · exact .inr ⟨⟨rfl, rfl⟩, g, line⟩
            · exact .inl old
          · rintro (old | ⟨⟨-, rfl⟩, -⟩)
            · exact .inr old
            · exact .inl rfl
        · rename_i other
          simp [other]
      · simp only [fails]
        refine ⟨.inl, ?_⟩
        rintro (old | ⟨⟨rfl, rfl⟩, g, line⟩)
        · exact old
        · exact absurd line (none g)
    rw [List.foldl_cons, ih (maps_paired same paired) others, counted, List.mem_cons, Edit.set.injEq, or_assoc, or_and_right]
    simp only [lines]

section

variable {settings : Settings} {tables : Flow.Tables} {d : Document} {bundle : Bundle}
  (built : d.build settings tables = .ok bundle)

include built

theorem units_lookup (unit : String) (code : UnitCode) :
    bundle.units.get? unit = some code ↔ (unit, code) ∈ bundle.units.entries :=
  Code.lookup_of_distinct ((bundle_compiled built).ascending.imp String.ne_of_lt) unit code

theorem maps_lookup (unit : String) : (Breakpoints.mapsOf bundle).get? unit = bundle.lineMap? unit := by
  have distinct : (Breakpoints.mapsOf bundle).entries.Pairwise (·.1 ≠ ·.1) := by
    refine List.Pairwise.filterMap _ ?_ (bundle_compiled built).ascending
    rintro ⟨k, u⟩ ⟨l, v⟩ less m taken n takenToo same
    obtain ⟨_, _, rfl⟩ := Option.map_eq_some_iff.mp taken
    obtain ⟨_, _, rfl⟩ := Option.map_eq_some_iff.mp takenToo
    exact String.ne_of_lt less same
  ext m
  rw [Dict.get?, Code.lookup_of_distinct distinct, Breakpoints.mapsOf, List.mem_filterMap, Bundle.lineMap?,
    Option.bind_eq_some_iff]
  constructor
  · rintro ⟨⟨k, code⟩, member, taken⟩
    obtain ⟨_, own, same⟩ := Option.map_eq_some_iff.mp taken
    obtain ⟨rfl, rfl⟩ := Prod.mk.inj same
    exact ⟨code, (units_lookup built _ code).mpr member, own⟩
  · rintro ⟨code, found, own⟩
    exact ⟨(unit, code), (units_lookup built unit code).mp found, by rw [own]; rfl⟩

theorem mapped_iff {b : Breakpoints} (maps : b.maps = Breakpoints.mapsOf bundle) (unit : String) (f : Nat) :
    (∃ g, b.flowLine? unit g = some f) ↔ f ∈ bundle.mappedLines unit := by
  unfold Breakpoints.flowLine? Breakpoints.lineMap? Bundle.mappedLines
  rw [maps, maps_lookup built]
  cases mapped : bundle.lineMap? unit with
  | none => simp
  | some m => exact ((built_paired built mapped).listed f).symm

theorem design_shows : Shows (.ofBundle bundle) (designFlags bundle) := by
  let start : Breakpoints × Flags := ({ maps := Breakpoints.mapsOf bundle }, fun _ => ∅)
  have paired : start.1.Paired := fun unit m found => built_paired built ((maps_lookup built unit).symm.trans found)
  have empty : Shows start.1 start.2 :=
    ⟨fun _ => .nil, fun _ _ => iff_of_false List.not_mem_nil (by simp [start]), by simp [start]⟩
  have shows := (run_shows paired empty (designEdits bundle)).1
  have table : ((designEdits bundle).foldl Edit.both start).1 = .ofBundle bundle := by
    rw [both_table, of_bundle_edits]
  have sets : ∀ e ∈ designEdits bundle, ∃ unit f, e = .set unit f := by
    intro e member
    obtain ⟨⟨unit, code⟩, -, listed⟩ := List.mem_flatMap.mp member
    obtain ⟨f, -, same⟩ := List.mem_map.mp listed
    exact ⟨unit, f, same.symm⟩
  have flags : ((designEdits bundle).foldl Edit.both start).2 = designFlags bundle := by
    funext unit
    ext f
    rw [sets_counted paired sets, mapped_iff built rfl, designFlags, Finset.mem_filter, List.mem_toFinset]
    have listed : Edit.set unit f ∈ designEdits bundle ↔ f ∈ ((bundle.units.get? unit).map (·.breakpoints)).getD [] := by
      unfold designEdits
      simp only [List.mem_flatMap, List.mem_map, Edit.set.injEq]
      constructor
      · rintro ⟨⟨k, code⟩, member, f, listed, rfl, rfl⟩
        rw [(units_lookup built k code).mpr member]
        exact listed
      · intro listed
        cases found : bundle.units.get? unit with
        | none => simp [found] at listed
        | some code =>
          rw [found] at listed
          exact ⟨(unit, code), (units_lookup built unit code).mp found, f, listed, rfl, rfl⟩
    rw [listed]
    exact or_iff_right (Finset.notMem_empty f)
  exact table ▸ flags ▸ shows

end

theorem breakpoints_are_flow_lines (settings : Settings) (tables : Flow.Tables) (d : Document) (bundle : Bundle)
    (built : d.build settings tables = .ok bundle) (edits : List Edit) (unit : String) :
    let s := edits.foldl Edit.both (.ofBundle bundle, designFlags bundle)
    (s.1.flowLines unit).Pairwise (· < ·) ∧ (s.1.flowLines unit).toFinset = s.2 unit ∧
    (∀ g, s.1.contains unit g = true ↔
      ∃ m f, bundle.lineMap? unit = some m ∧ m.flowLine? g = some f ∧ f ∈ s.2 unit) ∧
    ∀ f,
      ((∃ e, s.1.set unit f = .error e) ↔ f ∉ bundle.mappedLines unit) ∧
      ((∃ e, s.1.clear unit f = .error e) ↔ f ∉ bundle.mappedLines unit) ∧
      (f ∉ bundle.mappedLines unit → Edit.both s (.set unit f) = s ∧ Edit.both s (.clear unit f) = s) ∧
      ∀ there b, s.1.clear unit f = .ok (there, b) → (there = true ↔ f ∈ s.2 unit) := by
  intro s
  have first : (Breakpoints.ofBundle bundle).Paired := fun unit m found => by
    rw [Breakpoints.lineMap?, of_bundle_maps, maps_lookup built] at found
    exact built_paired built found
  obtain ⟨shows, maps⟩ : Shows s.1 s.2 ∧ s.1.maps = (Breakpoints.ofBundle bundle).maps :=
    run_shows (s := (.ofBundle bundle, designFlags bundle)) first (design_shows built) edits
  have paired : s.1.Paired := maps_paired maps first
  have mapped (f : Nat) := mapped_iff built (maps.trans (of_bundle_maps bundle)) unit f
  have own (g : Nat) : s.1.flowLine? unit g = (bundle.lineMap? unit).bind (·.flowLine? g) := by
    rw [Breakpoints.flowLine?, Breakpoints.lineMap?, maps, of_bundle_maps, maps_lookup built]
  obtain ⟨ordered, shown⟩ := flow_lines_shown shows unit
  refine ⟨ordered, shown, fun g => ?_, fun f => ?_⟩
  · rw [Breakpoints.contains, List.contains_iff_mem, shows.lines]
    simp only [own, Option.bind_eq_some_iff]
    constructor
    · rintro ⟨f, flagged, m, found, line⟩
      exact ⟨m, f, found, line, flagged⟩
    · rintro ⟨m, f, found, line, flagged⟩
      exact ⟨f, flagged, m, found, line⟩
  · rw [← mapped]
    exact edits_told paired shows unit f

def flaggedProject : Document where
  id := "flagged"
  units := [{
    id := "p1"
    flow := [
      { key := "group", breakpoint := true }, { key := "Net.open", breakpoint := true, disabled := true },
      { key := "Net.fetch", breakpoint := true }, { key := "Net.close", breakpoint := true }] }]

theorem flagged_project_lines : ∃ bundle, flaggedProject.build {} .standard = .ok bundle ∧
    designFlags bundle "p1" = {3, 4} ∧
    ((Breakpoints.ofBundle bundle).flowLines "p1").toFinset = designFlags bundle "p1" ∧
    (∃ e, (Breakpoints.ofBundle bundle).set "p1" 1 = .error e) ∧
    let s := [Edit.clear "p1" 3, .set "p1" 2, .set "p1" 4].foldl Edit.both (.ofBundle bundle, designFlags bundle)
    s.2 "p1" = {4} ∧ (s.1.flowLines "p1").toFinset = {4} := by
  have builds : ∃ bundle, flaggedProject.build {} .standard = .ok bundle ∧ designFlags bundle "p1" = {3, 4} ∧
      1 ∉ bundle.mappedLines "p1" ∧
      ([Edit.clear "p1" 3, .set "p1" 2, .set "p1" 4].foldl Edit.both (.ofBundle bundle, designFlags bundle)).2 "p1" = {4} :=
    ⟨_, rfl, by decide +kernel, by decide +kernel, by decide +kernel⟩
  obtain ⟨bundle, built, design, unmapped, later⟩ := builds
  obtain ⟨-, shown, -, told⟩ := breakpoints_are_flow_lines {} .standard flaggedProject bundle built [] "p1"
  obtain ⟨-, shownLater, -⟩ := breakpoints_are_flow_lines {} .standard flaggedProject bundle built
    [.clear "p1" 3, .set "p1" 2, .set "p1" 4] "p1"
  exact ⟨bundle, built, design, shown, (told 1).1.mpr unmapped, later, shownLater.trans later⟩

end Flowstep.Run
