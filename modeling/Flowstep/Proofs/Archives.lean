import Flowstep.Proofs.Loading
import Flowstep.Proofs.Manifest
import Flowstep.Proofs.Stems

/-!
Compiled projects that are written into a directory and loaded from it.
-/
namespace Flowstep.Project

open Code (LineMap)
open Flowstep.Flow (Tables)
open Json.Written (ofJson)

theorem script_name_inj {a b : String} (same : scriptName a = scriptName b) : a = b := (String.append_left_inj _).mp same

theorem map_name_inj {a b : String} (same : mapName a = mapName b) : a = b := (String.append_left_inj _).mp same

variable {stem name : String}

theorem script_name_ne (other : name.toList.getLast? ≠ some 'w') : scriptName stem ≠ name := by
  rintro rfl
  rw [scriptName, String.toList_append, List.getLast?_append] at other
  exact other rfl

theorem map_name_ne (other : name.toList.getLast? ≠ some 'p') : mapName stem ≠ name := by
  rintro rfl
  rw [mapName, String.toList_append, List.getLast?_append] at other
  exact other rfl

theorem script_name_ne_map {other : String} : scriptName stem ≠ mapName other := by
  refine script_name_ne ?_
  rw [mapName, String.toList_append, List.getLast?_append]
  change some 'p' ≠ some 'w'
  decide

variable {files : Files} {text : String}

theorem file_of_flat (flat : Flat name) (named : name ∉ ["", ".", ".."]) :
    fileOf files name = .ok text ↔ files.get? name = some text := by
  have relative : Text.startsWith name "/" = false := by
    change ['/'].isPrefixOf name.toList = false
    rw [Flat] at flat
    cases chars : name.toList with
    | nil => rfl
    | cons c cs =>
      rw [chars, List.mem_cons, not_or] at flat
      simp [List.isPrefixOf, flat.1]
  have whole : fileName? name = some name := by
    rw [fileName?, relative, show "/" = String.singleton '/' from rfl,
      Text.split_by_absent flat]
    simpa using named
  rw [fileOf, whole, Option.bind_some]
  cases files.get? name with
  | none => simp
  | some found => simp

theorem script_file (flat : Flat stem) :
    fileOf files (scriptName stem) = .ok text ↔ files.get? (scriptName stem) = some text := by
  refine file_of_flat ?_ ?_
  · rw [Flat, scriptName, String.toList_append, List.mem_append, not_or]
    exact ⟨flat, by decide⟩
  · simp only [List.mem_cons, List.not_mem_nil, or_false, not_or]
    exact ⟨script_name_ne (by decide), script_name_ne (by decide), script_name_ne (by decide)⟩

theorem map_file (flat : Flat stem) :
    fileOf files (mapName stem) = .ok text ↔ files.get? (mapName stem) = some text := by
  refine file_of_flat ?_ ?_
  · rw [Flat, mapName, String.toList_append, List.mem_append, not_or]
    exact ⟨flat, by decide⟩
  · simp only [List.mem_cons, List.not_mem_nil, or_false, not_or]
    exact ⟨map_name_ne (by decide), map_name_ne (by decide), map_name_ne (by decide)⟩

def UnitCode.Filed (files : Files) (u : UnitCode) : Prop :=
  files.get? (scriptName u.stem) = some u.source ∧ ∀ m ∈ u.lineMap, files.get? (mapName u.stem) = some m.render

variable {u : UnitCode}

theorem filed_insert (filed : u.Filed files) (text : String) (noScript : scriptName u.stem ≠ name)
    (noMap : mapName u.stem ≠ name) : u.Filed (files.insert name text) :=
  ⟨(Dict.get?_insert_of_ne files noScript text).trans filed.1,
    fun m mapped => (Dict.get?_insert_of_ne files noMap text).trans (filed.2 m mapped)⟩

theorem add_files_filed (files : Files) (u : UnitCode) : u.Filed (u.addFiles files) := by
  unfold UnitCode.addFiles
  cases mapped : u.lineMap with
  | none => exact ⟨Dict.get?_insert_self _ _ _, fun m other => by rw [mapped] at other; cases other⟩
  | some m =>
    refine ⟨?_, fun n same => ?_⟩
    · exact (Dict.get?_insert_of_ne _ (script_name_ne_map) _).trans (Dict.get?_insert_self _ _ _)
    · rw [mapped] at same
      cases same
      exact Dict.get?_insert_self _ _ _

theorem add_files_keeps (filed : u.Filed files) {v : UnitCode} (other : u.stem ≠ v.stem) :
    u.Filed (v.addFiles files) := by
  have script := filed_insert filed v.source (fun same => other (script_name_inj same))
    (Ne.symm (script_name_ne_map))
  unfold UnitCode.addFiles
  cases v.lineMap with
  | none => exact script
  | some m => exact filed_insert script _ (script_name_ne_map) fun same => other (map_name_inj same)

theorem all_files_keep (filed : u.Filed files) (units : List UnitCode) (others : ∀ v ∈ units, u.stem ≠ v.stem) :
    u.Filed (units.foldl UnitCode.addFiles files) := by
  induction units generalizing files with
  | nil => exact filed
  | cons v rest ih =>
    exact ih (add_files_keeps filed (others v List.mem_cons_self)) fun w member => others w (List.mem_cons_of_mem _ member)

theorem all_files_filed {units : List UnitCode} (distinct : (units.map (·.stem)).Nodup) (files : Files) :
    ∀ u ∈ units, u.Filed (units.foldl UnitCode.addFiles files) := by
  induction units generalizing files with
  | nil => simp
  | cons v rest ih =>
    rw [List.map_cons, List.nodup_cons] at distinct
    refine List.forall_mem_cons.mpr ⟨?_, ih distinct.2 _⟩
    refine all_files_keep (add_files_filed files v) rest fun w member same => distinct.1 ?_
    rw [same]
    exact List.mem_map_of_mem member

variable {b : Bundle}

theorem bundle_filed (distinct : (b.units.values.map (·.stem)).Nodup) (u : UnitCode) (member : u ∈ b.units.values) :
    u.Filed b.files :=
  filed_insert (all_files_filed distinct ∅ u member) _ (script_name_ne (by decide)) (map_name_ne (by decide))

theorem manifest_filed (b : Bundle) : b.files.get? manifestName = some (b.manifest.renderWide 0) := Dict.get?_insert_self _ _ _

def UnitCode.Loadable (files : Files) (u : UnitCode) : Prop :=
  files.get? (scriptName u.stem) = some u.source ∧
    (u.category = .process → ∃ text m, files.get? (mapName u.stem) = some text ∧ LineMap.parse text = .ok m)

def UnitCode.remapped (files : Files) (u : UnitCode) : UnitCode :=
  match u.category with
  | .module => u
  | .process => { u with lineMap := (files.get? (mapName u.stem)).bind fun text => (LineMap.parse text).toOption }

theorem remapped_module (module : u.category = .module) (files : Files) : u.remapped files = u := by
  rw [UnitCode.remapped, module]

theorem remapped_process {m : LineMap} (process : u.category = .process) (found : files.get? (mapName u.stem) = some text)
    (parsed : LineMap.parse text = .ok m) :
    u.remapped files = { u with lineMap := some m } := by
  obtain ⟨id, name, category, stem, params, breakpoints, steps, source, lineMap, digest⟩ := u
  cases process
  rw [UnitCode.remapped, found, Option.bind_some, parsed]
  rfl

def Bundle.remapped (files : Files) (b : Bundle) : Bundle := { b with units := b.units.map (UnitCode.remapped files) }

section Loading

variable {files : Files} {u : UnitCode} (flat : Flat u.stem)

include flat

theorem loadable_loads (compiled : u.Compiled) (loadable : u.Loadable files) : u.bare.load files = .ok (u.remapped files) := by
  have script := (script_file flat).mpr loadable.1
  have sealed : ¬(Digest.ofText u.source != u.digest) = true := by simp [compiled.digest]
  cases kind : u.category with
  | module =>
    have unmapped := compiled.unmapped kind
    obtain ⟨id, name, category, stem, params, breakpoints, steps, source, lineMap, digest⟩ := u
    cases kind
    cases unmapped
    simp only [UnitCode.load, UnitCode.bare, script, bind, Except.bind]
    exact if_neg sealed
  | process =>
    obtain ⟨text, m, found, parsed⟩ := loadable.2 kind
    have map := (map_file flat).mpr found
    obtain ⟨id, name, category, stem, params, breakpoints, steps, source, lineMap, digest⟩ := u
    cases kind
    simp only [UnitCode.load, UnitCode.bare, script, map, parsed, bind, Except.bind]
    refine (if_neg sealed).trans ?_
    rw [remapped_process rfl found parsed]
    rfl

theorem loaded_loadable
    (collisions : ∀ text, files.get? (scriptName u.stem) = some text → Digest.ofText text = u.digest → text = u.source)
    {v : UnitCode} (loaded : u.bare.load files = .ok v) : u.Loadable files := by
  obtain ⟨source, fetched, loaded⟩ := bind_ok loaded
  have found := (script_file flat).mp fetched
  dsimp only at loaded
  split at loaded
  · cases loaded
  rename_i same
  have unchanged : source = u.source := collisions source found (by simpa [UnitCode.bare] using same)
  subst unchanged
  refine ⟨found, fun process => ?_⟩
  have kind : u.bare.category = .process := process
  simp only [kind] at loaded
  obtain ⟨text, fetched, loaded⟩ := bind_ok loaded
  obtain ⟨m, parsed, _⟩ := bind_ok loaded
  exact ⟨text, m, (map_file flat).mp fetched, map_error_ok parsed⟩

end Loading

structure UnitCode.Storable (u : UnitCode) : Prop where
  canonical : ∀ v ∈ u.params, v.value.canonical = v.value
  steps : ∀ s ∈ u.steps, s.line < UInt64.size
  lines : ∀ m ∈ u.lineMap, ∀ e ∈ m.forward, e.1 < UInt64.size ∧ e.2 < UInt64.size

theorem compiled_recordable (compiled : b.Compiled) (storable : ∀ u ∈ b.units.values, u.Storable) :
    b.Recordable := by
  refine ⟨compiled.ascending, fun u member => ?_, compiled.globals, compiled.titled.1, compiled.titled.2⟩
  refine ⟨(storable u member).canonical, (compiled.units u member).ascending, fun n marked => ?_, (storable u member).steps⟩
  obtain ⟨s, listed, rfl⟩ := (compiled.units u member).listed n marked
  exact (storable u member).steps s listed

theorem map_all_ok {ε α β : Type} {f : α → Except ε β} {g : α → β} {l : List α} (all : ∀ a ∈ l, f a = .ok (g a)) :
    l.mapM f = .ok (l.map g) := by
  induction l with
  | nil => rfl
  | cons a rest ih =>
    rw [List.mapM_cons, all a List.mem_cons_self, ih fun a member => all a (List.mem_cons_of_mem _ member)]
    rfl

section Directory

variable {b : Bundle} {files : Files} (compiled : b.Compiled) (storable : ∀ u ∈ b.units.values, u.Storable)
  (decoded : Json.Written.parse? (b.manifest.renderWide 0) = some (ofJson b.manifest))
  (intact : files.get? manifestName = some (b.manifest.renderWide 0))

include compiled storable decoded intact

theorem manifest_loads : Bundle.load files =
    (b.units.entries.mapM fun e => do return (e.1, ← e.2.bare.load files)) >>= fun units => pure { b with units := ⟨units⟩ } := by
  have manifest : fileOf files manifestName = .ok (b.manifest.renderWide 0) :=
    (file_of_flat (by rw [Flat]; decide) (by decide)).mpr intact
  have read := manifest_read (compiled_recordable compiled storable)
  rw [Bundle.load, manifest]
  simp only [bind, Except.bind, decoded, Option.bind_some, read, Bundle.bare, Dict.map, List.mapM_map]
  rfl

theorem all_loadable_loads (loadable : ∀ u ∈ b.units.values, u.Loadable files) :
    Bundle.load files = .ok (b.remapped files) := by
  rw [manifest_loads compiled storable decoded intact, map_all_ok]
  · rfl
  · intro e member
    have inside : e.2 ∈ b.units.values := List.mem_map_of_mem member
    rw [loadable_loads (compiled.flat _ inside) (compiled.units _ inside) (loadable _ inside)]
    rfl

theorem loaded_all_loadable
    (collisions : ∀ u ∈ b.units.values, ∀ text, files.get? (scriptName u.stem) = some text →
      Digest.ofText text = Digest.ofText u.source → text = u.source)
    {q : Bundle} (loaded : Bundle.load files = .ok q) : ∀ u ∈ b.units.values, u.Loadable files := by
  rw [manifest_loads compiled storable decoded intact] at loaded
  obtain ⟨units, each, _⟩ := bind_ok loaded
  intro u member
  obtain ⟨e, inside, rfl⟩ := List.mem_map.mp member
  rcases Run.map_all_outcome (fun e : String × UnitCode => do return (e.1, ← e.2.bare.load files)) b.units.entries with
    ⟨_, all⟩ | ⟨_, _, _, _, failed⟩
  · obtain ⟨pair, made⟩ := all e inside
    obtain ⟨v, unitLoaded, _⟩ := bind_ok made
    refine loaded_loadable (compiled.flat _ member) (fun text found same => ?_) unitLoaded
    exact collisions _ member text found (same.trans (compiled.units _ member).digest)
  · rw [each] at failed
    cases failed

end Directory

theorem not_loadable : ¬u.Loadable files ↔ files.get? (scriptName u.stem) ≠ some u.source ∨
    (u.category = .process ∧ ∀ text, files.get? (mapName u.stem) = some text → ∃ e, LineMap.parse text = .error e) := by
  have unreadable (text : String) : (∀ m, LineMap.parse text ≠ .ok m) ↔ ∃ e, LineMap.parse text = .error e := by
    cases LineMap.parse text with
    | error e => simp
    | ok m => simp
  rw [UnitCode.Loadable, not_and_or]
  refine or_congr Iff.rfl ?_
  simp only [Classical.not_imp, not_exists, not_and, ← unreadable]
  exact and_congr_right fun _ => forall_congr' fun text => forall_comm

theorem loadable_unchanged : u.Loadable files ∧ u.remapped files = u ↔
    files.get? (scriptName u.stem) = some u.source ∧ (u.category = .process → ∃ text m,
      files.get? (mapName u.stem) = some text ∧ LineMap.parse text = .ok m ∧ u.lineMap = some m) := by
  constructor
  · rintro ⟨⟨script, mapped⟩, same⟩
    refine ⟨script, fun process => ?_⟩
    obtain ⟨text, m, found, parsed⟩ := mapped process
    rw [remapped_process process found parsed] at same
    exact ⟨text, m, found, parsed, (congrArg UnitCode.lineMap same).symm⟩
  · rintro ⟨script, mapped⟩
    refine ⟨⟨script, fun process => ?_⟩, ?_⟩
    · obtain ⟨text, m, found, parsed, _⟩ := mapped process
      exact ⟨text, m, found, parsed⟩
    · cases kind : u.category with
      | module => exact remapped_module kind files
      | process =>
        obtain ⟨text, m, found, parsed, own⟩ := mapped kind
        rw [remapped_process kind found parsed, ← own]

theorem filed_unchanged (compiled : u.Compiled) (storable : u.Storable) (filed : u.Filed files) :
    u.Loadable files ∧ u.remapped files = u := by
  refine loadable_unchanged.mpr ⟨filed.1, fun process => ?_⟩
  obtain ⟨origins, mapped, positive⟩ := compiled.mapped process
  refine ⟨_, _, filed.2 _ mapped, LineMap.parse_render fun e member => ?_, mapped⟩
  have fits := storable.lines _ mapped e member
  exact ⟨⟨(positive e member).1, fits.1⟩, (positive e member).2, fits.2⟩

theorem remapped_units (b : Bundle) (files : Files) :
    b.remapped files = b ↔ ∀ u ∈ b.units.values, u.remapped files = u := by
  have entries : b.remapped files = b ↔ b.units.entries.map (fun e => (e.1, e.2.remapped files)) = b.units.entries.map id := by
    rw [List.map_id]
    exact ⟨fun same => congrArg (fun b => b.units.entries) same, fun same => by rw [Bundle.remapped, Dict.map, same]⟩
  rw [entries, List.map_inj_left, Dict.values, List.forall_mem_map]
  refine forall₂_congr fun e _ => ?_
  rw [Prod.ext_iff]
  exact ⟨fun same => same.2, fun same => ⟨rfl, same⟩⟩

theorem written_project_loads (settings : Settings) (tables : Tables) (d : Document) (b : Bundle)
    (built : d.build settings tables = .ok b) (storable : ∀ u ∈ b.units.values, u.Storable)
    (decoded : Json.Written.parse? (b.manifest.renderWide 0) = some (ofJson b.manifest)) :
    Bundle.load b.files = .ok b ∧ (b.units.values.map (·.stem)).Nodup ∧
      ∀ u ∈ b.units.values, b.files.get? (scriptName u.stem) = some u.source ∧
        ∀ m ∈ u.lineMap, b.files.get? (mapName u.stem) = some m.render := by
  have compiled := bundle_compiled built
  have filed := bundle_filed compiled.distinct
  have each (u : UnitCode) (member : u ∈ b.units.values) :=
    filed_unchanged (compiled.units u member) (storable u member) (filed u member)
  have loads := all_loadable_loads compiled storable decoded (manifest_filed b) fun u member => (each u member).1
  refine ⟨?_, compiled.distinct, filed⟩
  rw [loads, (remapped_units b b.files).mpr fun u member => (each u member).2]

def simpleUnit (u : UnitCode) : Bool :=
  u.params.all (·.value.asStr?.isSome) && u.steps.all (·.line < UInt64.size) &&
    u.lineMap.all fun m => m.forward.all fun e => e.1 < UInt64.size && e.2 < UInt64.size

theorem simple_storable (simple : simpleUnit u = true) :
    u.Storable ∧ ∀ v ∈ u.params, Json.Holds 122 v.value := by
  simp only [simpleUnit, Bool.and_eq_true, List.all_eq_true, Option.all_eq_true, decide_eq_true_eq] at simple
  obtain ⟨⟨texts, steps⟩, lines⟩ := simple
  have text (v : Flow.Variable) (member : v ∈ u.params) : ∃ s, v.value = .str s := by
    have known := texts v member
    cases value : v.value with
    | str s => exact ⟨s, rfl⟩
    | _ => rw [value] at known; cases known
  refine ⟨⟨fun v member => ?_, steps, lines⟩, fun v member => ?_⟩
  · obtain ⟨s, value⟩ := text v member
    rw [value, Json.canonical]
    all_goals simp
  · obtain ⟨s, value⟩ := text v member
    rw [value]
    exact Json.holds_str 122 s

theorem simple_decodes {settings : Settings} {tables : Tables} {d : Document} (built : d.build settings tables = .ok b)
    (simple : b.units.values.all simpleUnit = true) :
    (∀ u ∈ b.units.values, u.Storable) ∧ Json.Written.parse? (b.manifest.renderWide 0) = some (ofJson b.manifest) := by
  rw [List.all_eq_true] at simple
  have storable := fun u member => (simple_storable (simple u member)).1
  exact ⟨storable, manifest_decodes (compiled_recordable (bundle_compiled built) storable)
    fun u member => (simple_storable (simple u member)).2⟩

def mixedProject : Document where
  id := "mixed"
  units := [{ id := "m2", category := .module, source := "def main(args):\n    return 1" },
    { id := "p2", flow := [{ key := "Net.fetch", breakpoint := true }, { key := "Net.close" }],
      params := [{ name := "size", value := .str "3" }] },
    { id := "m1", category := .module, source := "x = 1" },
    { id := "p1", name := "main", flow := [{ key := "group" }, { key := "Net.open" }, { key := "groupEnd" }] }]

theorem mixed_project_loads : ∃ b, mixedProject.build {} .standard = .ok b ∧ Bundle.load b.files = .ok b ∧
    b.units.values.map (·.stem) = ["module2", "module1", "main", "process1"] := by
  obtain ⟨b, built, known⟩ := built_such_that {} .standard mixedProject
    (fun b => b.units.values.all simpleUnit &&
      decide (b.units.values.map (·.stem) = ["module2", "module1", "main", "process1"])) (by decide +kernel)
  obtain ⟨simple, stems⟩ := Bool.and_eq_true_iff.mp known
  obtain ⟨storable, decoded⟩ := simple_decodes built simple
  exact ⟨b, built, (written_project_loads {} .standard mixedProject b built storable decoded).1, of_decide_eq_true stems⟩

-- A changed directory is refused, or gives the project back with the line maps that stand there. Scripts are checked in
-- full and line maps only for being readable, so the project is the one that was written exactly if every map is.
theorem changed_scripts_are_refused (settings : Settings) (tables : Tables) (d : Document) (b : Bundle)
    (built : d.build settings tables = .ok b) (storable : ∀ u ∈ b.units.values, u.Storable)
    (decoded : Json.Written.parse? (b.manifest.renderWide 0) = some (ofJson b.manifest)) (files : Files)
    (intact : files.get? manifestName = b.files.get? manifestName)
    (collisions : ∀ u ∈ b.units.values, ∀ text, files.get? (scriptName u.stem) = some text →
      Digest.ofText text = Digest.ofText u.source → text = u.source) :
    ((∃ e, Bundle.load files = .error e) ∨ Bundle.load files = .ok (b.remapped files)) ∧
      ((∃ e, Bundle.load files = .error e) ↔ ∃ u ∈ b.units.values, files.get? (scriptName u.stem) ≠ some u.source ∨
        (u.category = .process ∧ ∀ text, files.get? (mapName u.stem) = some text → ∃ e, LineMap.parse text = .error e)) ∧
      (Bundle.load files = .ok b ↔ ∀ u ∈ b.units.values, files.get? (scriptName u.stem) = some u.source ∧
        (u.category = .process → ∃ text m, files.get? (mapName u.stem) = some text ∧ LineMap.parse text = .ok m ∧
          u.lineMap = some m)) := by
  have compiled := bundle_compiled built
  rw [manifest_filed] at intact
  simp only [← not_loadable, ← loadable_unchanged]
  by_cases loadable : ∀ u ∈ b.units.values, u.Loadable files
  · have loads := all_loadable_loads compiled storable decoded intact loadable
    rw [loads]
    refine ⟨.inr rfl, iff_of_false (by simp) (by simpa using loadable), ?_⟩
    rw [Except.ok.injEq, remapped_units]
    exact forall₂_congr fun u member => ⟨fun same => ⟨loadable u member, same⟩, fun both => both.2⟩
  · have refused : ∀ q, Bundle.load files ≠ .ok q := fun q loaded =>
      loadable (loaded_all_loadable compiled storable decoded intact collisions loaded)
    have failed : ∃ e, Bundle.load files = .error e := by
      cases outcome : Bundle.load files with
      | error e => exact ⟨e, rfl⟩
      | ok q => exact absurd outcome (refused q)
    refine ⟨.inl failed, iff_of_true failed (by simpa using loadable), iff_of_false (refused b) fun all => ?_⟩
    exact loadable fun u member => (all u member).1

theorem rewritten_script_is_refused : ∃ b e, mixedProject.build {} .standard = .ok b ∧
    Bundle.load (b.files.insert (scriptName "module2") "x = 2") = .error e := by
  obtain ⟨b, built, known⟩ := built_such_that {} .standard mixedProject
    (fun b => b.units.values.all simpleUnit && (b.units.values.map (·.stem)).contains "module2" &&
      b.units.values.all fun u => u.stem != "module2" || u.source == "x = 1") (by decide +kernel)
  obtain ⟨known, sources⟩ := Bool.and_eq_true_iff.mp known
  obtain ⟨simple, listed⟩ := Bool.and_eq_true_iff.mp known
  obtain ⟨storable, decoded⟩ := simple_decodes built simple
  have filed := bundle_filed (bundle_compiled built).distinct
  have source (u : UnitCode) (member : u ∈ b.units.values) (stem : u.stem = "module2") : u.source = "x = 1" := by
    simpa [stem] using List.all_eq_true.mp sources u member
  obtain ⟨_, refused, _⟩ := changed_scripts_are_refused {} .standard mixedProject b built storable decoded
    (b.files.insert (scriptName "module2") "x = 2") (Dict.get?_insert_of_ne _ (by decide) _) (by
      intro u member text found same
      by_cases stem : u.stem = "module2"
      · rw [stem] at found
        cases (Dict.get?_insert_self _ _ _).symm.trans found
        rw [source u member stem] at same
        exact absurd same (by decide +kernel)
      · rw [Dict.get?_insert_of_ne _ fun name => stem (script_name_inj name), (filed u member).1] at found
        exact (Option.some.inj found).symm)
  obtain ⟨u, member, stem⟩ := List.mem_map.mp (List.contains_iff_mem.mp listed)
  obtain ⟨e, failed⟩ := refused.mpr ⟨u, member, .inl (by
    rw [stem, source u member stem]
    exact fun same => absurd ((Dict.get?_insert_self _ _ _).symm.trans same) (by decide))⟩
  exact ⟨b, e, built, failed⟩

theorem rewritten_map_loadable (loadable : u.Loadable files) {m : LineMap} (parsed : LineMap.parse text = .ok m) :
    u.Loadable (files.insert (mapName stem) text) := by
  refine ⟨(Dict.get?_insert_of_ne _ (script_name_ne_map) _).trans loadable.1, fun process => ?_⟩
  by_cases own : u.stem = stem
  · rw [own]
    exact ⟨text, m, Dict.get?_insert_self _ _ _, parsed⟩
  · rw [Dict.get?_insert_of_ne _ fun name => own (map_name_inj name)]
    exact loadable.2 process

theorem rewritten_map_is_loaded : ∃ b q, (alone [{ key := "Net.fetch" }]).build {} .standard = .ok b ∧
    Bundle.load (b.files.insert (mapName "main") "1:1") = .ok q ∧ q ≠ b := by
  obtain ⟨b, built, known⟩ := built_such_that {} .standard (alone [{ key := "Net.fetch" }])
    (fun b => b.units.values.all simpleUnit && decide (b.units.values.map (fun u => (u.category, u.stem, u.lineMap)) =
      [(.process, "main", some ⟨[(4, 1)], [(1, [4])]⟩)])) (by decide +kernel)
  obtain ⟨simple, only⟩ := Bool.and_eq_true_iff.mp known
  obtain ⟨storable, decoded⟩ := simple_decodes built simple
  have compiled := bundle_compiled built
  have filed := bundle_filed compiled.distinct
  have parsed : LineMap.parse "1:1" = .ok ⟨[(1, 1)], [(1, [1])]⟩ := by decide +kernel
  have loads : Bundle.load (b.files.insert (mapName "main") "1:1") = .ok (b.remapped _) :=
    all_loadable_loads compiled storable decoded
    ((Dict.get?_insert_of_ne _ (by decide) _).trans (manifest_filed b)) fun u member =>
      rewritten_map_loadable (filed_unchanged (compiled.units u member) (storable u member) (filed u member)).1 parsed
  refine ⟨b, _, built, loads, fun same => ?_⟩
  obtain ⟨u, single, pair⟩ := List.map_eq_singleton_iff.mp (of_decide_eq_true only)
  obtain ⟨process, stem, mapped⟩ : u.category = .process ∧ u.stem = "main" ∧ u.lineMap = some ⟨[(4, 1)], [(1, [4])]⟩ := by
    simpa using pair
  have unchanged := (remapped_units b _).mp same u (by rw [single]; exact List.mem_singleton_self u)
  rw [remapped_process process (by rw [stem]; exact Dict.get?_insert_self _ _ _) parsed] at unchanged
  have maps : some (⟨[(1, 1)], [(1, [1])]⟩ : LineMap) = some ⟨[(4, 1)], [(1, [4])]⟩ :=
    (congrArg UnitCode.lineMap unchanged).trans mapped
  exact absurd maps (by decide)

end Flowstep.Project
