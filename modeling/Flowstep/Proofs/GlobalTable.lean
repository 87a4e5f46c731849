import Flowstep.Proofs.Literals
import Flowstep.Proofs.OutputValues
import Mathlib.Data.List.Perm.Basic

/-!
The table of globals at the start of a run: one entry for each declared global, under the name by which code refers
to it.
-/
namespace Flowstep.Dict

variable {α β : Type}

theorem insert_entry_perm {k : String} {l : List (String × α)} (v : α) (absent : k ∉ l.map Prod.fst) :
    (insertEntry k v l).Perm ((k, v) :: l) := by
  induction l with
  | nil => exact .refl _
  | cons e rest ih =>
    rw [List.map_cons, List.mem_cons, not_or] at absent
    rw [insertEntry]
    split
    · exact .refl _
    · rw [if_neg absent.1]
      exact ((ih absent.2).cons e).trans (.swap _ _ _)

theorem of_list_perm {l : List (String × α)} (distinct : (l.map Prod.fst).Nodup) : (ofList l).entries.Perm l := by
  induction l using List.reverseRecOn with
  | nil => exact .refl _
  | append_singleton l e ih =>
    rw [List.map_append, List.nodup_append] at distinct
    have known := ih distinct.1
    have absent : e.1 ∉ (ofList l).entries.map Prod.fst := fun member =>
      distinct.2.2 _ ((known.map _).mem_iff.mp member) _ List.mem_cons_self rfl
    rw [ofList, List.foldl_append]
    exact (insert_entry_perm e.2 absent).trans ((known.cons e).trans (List.perm_append_singleton e l).symm)

theorem insert_entry_map (f : α → β) (k : String) (v : α) (l : List (String × α)) :
    (insertEntry k v l).map (fun e => (e.1, f e.2)) = insertEntry k (f v) (l.map fun e => (e.1, f e.2)) := by
  induction l with
  | nil => rfl
  | cons e rest ih =>
    rw [insertEntry, List.map_cons, insertEntry]
    split
    · rfl
    · split
      · rfl
      · rw [List.map_cons, ih]

theorem of_list_map (f : α → β) (l : List (String × α)) : (ofList l).map f = ofList (l.map fun e => (e.1, f e.2)) := by
  induction l using List.reverseRecOn with
  | nil => rfl
  | append_singleton l e ih =>
    rw [List.map_append, ofList, List.foldl_append, ofList, List.foldl_append]
    exact (congrArg Dict.mk (insert_entry_map f e.1 e.2 _)).trans (congrArg (fun m => insert m e.1 (f e.2)) ih)

theorem get_of_mem {m : Dict α} {e : String × α} (ascending : m.Ascending) (member : e ∈ m.entries) :
    m.get? e.1 = some e.2 := by
  obtain ⟨front, back, split⟩ := List.append_of_mem member
  rw [Ascending, split, List.pairwise_append] at ascending
  refine List.lookup_eq_some_iff.mpr ⟨front, back, split, fun f earlier => ?_⟩
  have less := ascending.2.2 f earlier e List.mem_cons_self
  exact bne_iff_ne.mpr fun same => String.lt_irrefl _ (same ▸ less)

end Flowstep.Dict

namespace Flowstep.Script

variable {stmts : List Stmt} {next : Nat}

theorem tokenize_ended (row : Row) : tokenize (row.text ++ "\n") =
    .ok (forestTokens 1 1 [.node row []] ++ [⟨.eof, row.height + 2⟩]) := by
  have lexed : (Lexer.lineStart (List.replicate (0 * 1) ' ' ++ row.text.toList ++ ['\n']) 1 (Lexer.stack 1 0) []).lex = _ :=
    Lexer.lex_row 1 row ['\n'] [] (by decide) (by decide) (by simp [Meets, endsLine])
  obtain ⟨t, read, split, flat⟩ := Lexer.row_read row 1 []
  have turned : turn 0 0 1 = [] := rfl
  have chars : (row.text ++ "\n").toList = List.replicate (0 * 1) ' ' ++ row.text.toList ++ ['\n'] := String.toList_append
  rw [← chars, turned, List.nil_append, split, Lexer.lex_line_feed read flat] at lexed
  refine (congrArg (· >>= Lexer.finish) lexed).trans ?_
  have reversed := congrArg List.reverse split
  rw [List.reverse_cons] at reversed
  change Except.ok (⟨.eof, 1 + row.height + 1⟩ :: ⟨.newline, 1 + row.height⟩ :: t :: read).reverse = _
  rw [List.reverse_cons, List.reverse_cons, List.reverse_cons, ← reversed]
  simp [forestTokens, Node.tokens]
  omega

theorem parse_ended {text : String} (written : Written 0 [⟨0, text, none⟩] 1 next stmts) :
    Program.parse (text ++ "\n") = .ok ⟨stmts⟩ := by
  obtain ⟨nodes, forms, tells, _⟩ := written
  obtain _ | ⟨⟨row, inner⟩, others⟩ := nodes
  · cases forms
  obtain ⟨first, rest⟩ := List.cons.inj forms
  obtain rfl : text = row.text := (Prod.mk.inj first).2
  obtain ⟨noInner, noOthers⟩ := List.append_eq_nil_iff.mp (List.map_eq_nil_iff.mp rest.symm)
  rw [not_imp_not.mp forest_rows_present noInner, not_imp_not.mp forest_rows_present noOthers] at tells
  exact Parser.parse_tokens tells (tokenize_ended row)

end Flowstep.Script

namespace Flowstep.Code

open Flowstep.Flow (Variable Fragment)
open Script (Program Spells Value)

-- A character that is written alike by both ways of quoting.
def plainChar (c : Char) : Bool := 32 ≤ c.toNat || c = '\n' || c = '\r' || c = '\t'

def plainName (name : String) : Bool := name.toList.all plainChar

theorem escape_char_plain {c : Char} (plain : plainChar c) : Json.escapeChar c = quotedChar c := by
  unfold quotedChar
  split <;> try rfl
  rename_i quote slash feed back tab
  have visible : 32 ≤ c.toNat := by
    simp only [plainChar, Bool.or_eq_true, decide_eq_true_eq] at plain
    rcases plain with ((visible | same) | same) | same
    · exact visible
    · exact (feed same).elim
    · exact (back same).elim
    · exact (tab same).elim
  rw [Json.escapeChar, if_neg quote, if_neg slash, if_neg feed, if_neg back, if_neg tab, if_neg (by omega),
    if_neg (by omega), if_neg (by omega)]

theorem quoted_plain {name : String} (plain : plainName name) : Json.quoted name = quote name := by
  have chars : name.toList.flatMap Json.escapeChar = name.toList.flatMap quotedChar :=
    List.flatMap_congr fun c member => escape_char_plain (List.all_eq_true.mp plain c member)
  rw [Json.quoted, quote, chars, List.cons_append]

def simpleDefault : Json → Bool
  | .null | .bool _ => true
  | .int n => -2 ^ 63 < n && n < 2 ^ 63
  | .str s => !Text.startsWith (Text.trimStart s) "["
  | _ => false

theorem simple_default_code {v : Variable} (simple : simpleDefault v.value) : (Operand.ofDefault v).code = literal v.value := by
  unfold Operand.ofDefault
  cases value : v.value with
  | str s =>
    rw [value, simpleDefault, Bool.not_eq_true'] at simple
    dsimp only
    rw [simple]
    rfl
  | null | bool _ | int _ => rfl
  | float _ | arr _ | obj _ =>
    rw [value] at simple
    cases simple

theorem simple_default_readable {j : Json} (simple : simpleDefault j) :
    readable j ∧ j.canonical = j ∧ elementless j := by
  cases j with
  | null | bool _ | str _ => exact ⟨rfl, rfl, rfl⟩
  | int n => exact ⟨simple, rfl, rfl⟩
  | float _ | arr _ | obj _ => cases simple

theorem parse_initialiser (name : String) {j : Json} (plain : plainName name) (reads : readable j) :
    Program.parse ("gv[" ++ Json.quoted name ++ "] = " ++ literal j ++ "\n") =
      .ok ⟨[⟨1, .assign [.index (.name "gv") (textExpr name)] (literalExpr j)⟩]⟩ := by
  have spells := Script.spells_below (spells_literal 0 j reads) (by decide) (Nat.zero_le _)
  have written := Script.written_assign_one 0 1 _ (globalRef name) (.index (.name "gv") (textExpr name)) (literal j) none _ rfl
    (spells_global name) (Script.spells_denotes spells (by decide))
  have parsed := Script.parse_ended written
  have closed : "]" ++ " = " = "] = " := by decide
  have text : globalRef name ++ " = " = "gv[" ++ Json.quoted name ++ "] = " := by
    rw [quoted_plain plain, ← closed, globalRef, String.append_assoc]
  rw [← text]
  exact parsed

end Flowstep.Code

namespace Flowstep.Run

open Code (plainName simpleDefault textExpr literalExpr)
open Flowstep.Flow (Variable)
open Script (Host Program Value World Machine)
open Script.Interp

variable {σ ε : Type}

theorem initialiser_runs {host : Host σ} (unit name : String) {j : Json} (simple : simpleDefault j) {w : World σ} {x : σ}
    (checked : host.checkpoint 1 ⟨unit, ∅, 0⟩ w = .ok () ⟨w.globals, x⟩) :
    ∃ least, ∀ fuel ≥ least,
      Program.run host unit fuel ⟨[⟨1, .assign [.index (.name "gv") (textExpr name)] (literalExpr j)⟩]⟩ ∅ w =
        .ok ∅ ⟨w.globals.insert name (.ofJson j), x⟩ := by
  obtain ⟨reads, ordered, plain⟩ := Code.simple_default_readable simple
  let ctx : Script.Context σ := ⟨host, unit⟩
  let entered : Machine σ := ⟨⟨w.globals, x⟩, .start, ∅, [], 1⟩
  have passed : Script.Interp.checkpoint ctx 1 (.start w) = .ok () entered := by
    change Script.Exec.ofHost (host.checkpoint 1 ⟨unit, ∅, 0⟩) ⟨w, .start, ∅, [], 1⟩ = _
    rw [Script.Exec.ofHost, checked]
  have assigned := settles_located ctx passed (settles_assign ctx 1 (Code.literal_evaluates ctx entered j ordered reads plain)
    (settles_bind_global ctx name (.ofJson j) rfl))
  obtain ⟨least, same⟩ := settles_block_single ctx assigned
  refine ⟨least, fun fuel enough => ?_⟩
  have ran : runProgram ctx fuel ⟨[⟨1, .assign [.index (.name "gv") (textExpr name)] (literalExpr j)⟩]⟩ ∅ (.start w) =
      .ok ∅ { entered with world := ⟨w.globals.insert name (.ofJson j), x⟩ } := by
    exact (bind_runs (same fuel enough)).trans rfl
  rw [Program.run, ran]

section

variable {host : Host (Execution ε)} {calm : Execution ε → Prop}

theorem globals_loaded
    (quiet : ∀ w, calm w.host → ∃ x, host.checkpoint 1 ⟨globalsUnit, ∅, 0⟩ w = .ok () ⟨w.globals, x⟩ ∧ calm x)
    {rows : List (String × Variable)} (fits : ∀ e ∈ rows, plainName e.1 ∧ simpleDefault e.2.value)
    {w : World (Execution ε)} (still : calm w.host) :
    ∃ x least, calm x ∧ ∀ fuel ≥ least,
      loadGlobals host fuel (rows.map fun e => (e.1, (Code.Operand.ofDefault e.2).code)) w =
        .ok () ⟨rows.foldl (fun m e => m.insert e.1 (.ofJson e.2.value)) w.globals, x⟩ := by
  induction rows generalizing w with
  | nil => exact ⟨w.host, 0, still, fun _ _ => rfl⟩
  | cons e rows ih =>
    obtain ⟨⟨plain, simple⟩, others⟩ := List.forall_mem_cons.mp fits
    obtain ⟨x, checked, still⟩ := quiet w still
    obtain ⟨first, ran⟩ := initialiser_runs globalsUnit e.1 simple checked
    obtain ⟨y, least, still, loaded⟩ := ih others (w := ⟨w.globals.insert e.1 (.ofJson e.2.value), x⟩) still
    refine ⟨y, max first least, still, fun fuel enough => ?_⟩
    rw [List.map_cons, loadGlobals, Code.simple_default_code simple,
      Code.parse_initialiser e.1 plain (Code.simple_default_readable simple).1]
    exact (bind_runs (ran fuel (le_trans (Nat.le_max_left _ _) enough))).trans
      (loaded fuel (le_trans (Nat.le_max_right _ _) enough))

end

end Flowstep.Run

namespace Flowstep.Project

open Code (plainName simpleDefault globalExpr globalRef)
open Flowstep.Flow (Variable)
open Run (Execution loadGlobals globalsUnit)
open Script (Host Program Value World Machine)
open Script.Interp

variable {ε : Type}

theorem globals_start_as_declared {d : Document} {settings : Settings} {tables : Flow.Tables} {bundle : Bundle}
    (host : Host (Execution ε)) (calm : Execution ε → Prop) (w : World (Execution ε))
    (built : d.build settings tables = .ok bundle) (distinct : (d.globals.map (·.name)).Nodup)
    (named : ∀ v ∈ d.globals, plainName v.name) (simple : ∀ v ∈ d.globals, simpleDefault v.value)
    (quiet : ∀ w, calm w.host → ∃ x, host.checkpoint 1 ⟨globalsUnit, ∅, 0⟩ w = .ok () ⟨w.globals, x⟩ ∧ calm x)
    (fresh : w.globals = ∅) (still : calm w.host) :
    ∃ after least, (∀ fuel ≥ least, loadGlobals host fuel bundle.globals.entries w = .ok () after) ∧ calm after.host ∧
      after.globals.entries.Perm (d.globals.map fun v => (v.name, .ofJson v.value)) ∧
      ∀ v ∈ d.globals, ∃ e, Program.parse (globalRef v.name) = .ok ⟨[⟨1, .expr e⟩]⟩ ∧
        ∀ {σ : Type} (ctx : Script.Context σ) (m : Machine σ), m.world.globals = after.globals →
          m.frames.lookup "gv" = none → Settles (eval ctx · e) m (.ok (.ofJson v.value) m) := by
  let table := Dict.ofList (d.globals.map fun v => (v.name, v))
  have ascending : table.Ascending := Dict.of_list_ascending _
  have listed : table.entries.Perm (d.globals.map fun v => (v.name, v)) :=
    Dict.of_list_perm (by rwa [List.map_map])
  have codes : bundle.globals.entries = table.entries.map fun e => (e.1, (Code.Operand.ofDefault e.2).code) := by
    have mapped := Dict.of_list_map (fun v => (Code.Operand.ofDefault v).code) (d.globals.map fun v => (v.name, v))
    rw [List.map_map] at mapped
    rw [(build_parts built).2.2.2]
    exact (congrArg Dict.entries mapped).symm
  have fits : ∀ e ∈ table.entries, plainName e.1 ∧ simpleDefault e.2.value := by
    intro e member
    obtain ⟨v, declared, rfl⟩ := List.mem_map.mp (listed.mem_iff.mp member)
    exact ⟨named v declared, simple v declared⟩
  obtain ⟨x, least, still, loaded⟩ := Run.globals_loaded quiet fits still
  have held : table.entries.foldl (fun m e => m.insert e.1 (.ofJson e.2.value)) (∅ : Dict Value) =
      table.map fun v => .ofJson v.value := by
    have ordered := Dict.of_list_ordered (Dict.map_ascending (fun v : Variable => Value.ofJson v.value) ascending)
    rwa [Dict.ofList, Dict.map, List.foldl_map] at ordered
  rw [fresh, held, ← codes] at loaded
  have entries := listed.map fun e => (e.1, Value.ofJson e.2.value)
  rw [List.map_map] at entries
  refine ⟨_, least, loaded, still, entries, fun v declared => ⟨globalExpr v.name, ?_, fun ctx m same free => ?_⟩⟩
  · exact Script.parse_expression (Script.spells_loose (Code.spells_global v.name))
  · refine Code.settles_global free ?_
    rw [same]
    have member := entries.mem_iff.mpr (List.mem_map.mpr ⟨v, declared, rfl⟩)
    exact Dict.get_of_mem (Dict.map_ascending (fun v : Variable => Value.ofJson v.value) ascending) member

open Run (engineHost silence)

def sharing (globals : List Variable) : Document := { id := "shared", units := [{ id := "p1" }], globals }

def greetings : List Variable := [⟨"wie\n\"geht\\s\"", "", .str "gut", .input⟩, ⟨"α", "", .int (-5), .input⟩]

theorem greetings_start_as_declared : ∃ bundle after least, (sharing greetings).build {} .standard = .ok bundle ∧
    (∀ fuel ≥ least, loadGlobals (engineHost {} silence ⟨bundle, ∅⟩ 60 2) fuel bundle.globals.entries
      (Execution.start {} bundle ()) = .ok () after) ∧
    after.globals.entries.Perm [("wie\n\"geht\\s\"", .str "gut"), ("α", .int (-5))] := by
  obtain ⟨bundle, built, _⟩ := built_such_that {} .standard (sharing greetings) (fun _ => true) (by decide +kernel)
  obtain ⟨after, least, loaded, _, entries, _⟩ := globals_start_as_declared (engineHost {} silence ⟨bundle, ∅⟩ 60 2)
    (fun x => x.panel.control.stopped = false) (Execution.start {} bundle ()) built
    (by decide) (by decide) (by decide) (fun w going => ⟨w.host, Run.checkpoint_unmapped going (.inl rfl), going⟩) rfl rfl
  exact ⟨bundle, after, least, built, loaded, entries⟩

def lost : List Variable := [⟨"\x01", "", .int 5, .input⟩]

theorem control_character_respelled : ∃ bundle after, (sharing lost).build {} .standard = .ok bundle ∧
    loadGlobals (engineHost {} silence ⟨bundle, ∅⟩ 60 2) 60 bundle.globals.entries (Execution.start {} bundle ()) =
      .ok () after ∧ after.globals.get? "\x01" = none ∧ after.globals.keys = ["\\u0001"] := by
  obtain ⟨bundle, built, seen⟩ := built_such_that {} .standard (sharing lost) (fun bundle =>
    match loadGlobals (engineHost {} silence ⟨bundle, ∅⟩ 60 2) 60 bundle.globals.entries (Execution.start {} bundle ()) with
    | .ok _ after => (after.globals.get? "\x01").isNone && after.globals.keys == ["\\u0001"]
    | .error _ _ => false) (by decide +kernel)
  split at seen
  · rename_i after loaded
    obtain ⟨absent, keys⟩ := Bool.and_eq_true_iff.mp seen
    exact ⟨bundle, after, built, loaded, Option.isNone_iff_eq_none.mp absent, eq_of_beq keys⟩
  · cases seen

end Flowstep.Project
