import Flowstep.Proofs.Operands

/-!
Expressions written out with no more brackets than the grammar asks for: reading the text gives the expression back.
-/
namespace Flowstep.Script

namespace Expr

-- How tightly the outermost operator of an expression binds.
def level : Expr → Nat
  | .or .. => 0
  | .and .. => 1
  | .not _ => 2
  | .cmp .. => 3
  | .bin op .. => binLevel op
  | .neg _ => 6
  | _ => 7

def enclosed (need : Nat) (e : Expr) (code : String) : String :=
  if e.level < need then "(" ++ code ++ ")" else code

mutual

def code : Expr → String
  | .lit (.int n) => toString n.toInt
  | .lit (.str s) => Code.quote s
  | .lit (.bool flag) => Code.truthWord flag
  | .lit _ => "None"
  | .name n => n
  | .attr base n => enclosed 7 base base.code ++ "." ++ n
  | .index base i => enclosed 7 base base.code ++ "[" ++ i.code ++ "]"
  | .call callee args named =>
    enclosed 7 callee callee.code ++ "(" ++ Text.joinWith ", " (codes args ++ namedCodes named) ++ ")"
  | .list items => "[" ++ Text.joinWith ", " (codes items) ++ "]"
  | .dict entries => "\x7b" ++ Text.joinWith ", " (entryCodes entries) ++ "\x7d"
  | .not e => "not " ++ enclosed 2 e e.code
  | .neg e => "-" ++ enclosed 6 e e.code
  | .bin op a b =>
    enclosed (binLevel op) a a.code ++ (" " ++ op.symbol ++ " ") ++ enclosed (binLevel op + 1) b b.code
  | .cmp op a b => enclosed 4 a a.code ++ (" " ++ op.symbol ++ " ") ++ enclosed 4 b b.code
  | .and a b => enclosed 1 a a.code ++ (" " ++ "and" ++ " ") ++ enclosed 2 b b.code
  | .or a b => enclosed 0 a a.code ++ (" " ++ "or" ++ " ") ++ enclosed 1 b b.code

def codes : List Expr → List String
  | [] => []
  | e :: rest => e.code :: codes rest

def namedCodes : List (String × Expr) → List String
  | [] => []
  | (n, e) :: rest => (n ++ "=" ++ e.code) :: namedCodes rest

def entryCodes : List (Expr × Expr) → List String
  | [] => []
  | (k, e) :: rest => (k.code ++ ": " ++ e.code) :: entryCodes rest

end

theorem codes_map (items : List Expr) : codes items = items.map code := by
  induction items with
  | nil => rfl
  | cons e rest ih => rw [codes, ih, List.map_cons]

theorem named_codes_map (named : List (String × Expr)) : namedCodes named = named.map fun p => p.1 ++ "=" ++ p.2.code := by
  induction named with
  | nil => rfl
  | cons p rest ih => rw [namedCodes, ih, List.map_cons]

theorem entry_codes_map (entries : List (Expr × Expr)) : entryCodes entries = entries.map fun p => p.1.code ++ ": " ++ p.2.code := by
  induction entries with
  | nil => rfl
  | cons p rest ih => rw [entryCodes, ih, List.map_cons]

-- The expressions that reading can give back: a number has no sign of its own, and a sign before it is part of it.
inductive Plain : Expr → Prop where
  | int (n : Int64) (low : 0 ≤ n.toInt) : Plain (.lit (.int n))
  | str (s : String) : Plain (.lit (.str s))
  | bool (flag : Bool) : Plain (.lit (.bool flag))
  | none : Plain (.lit .none)
  | name (n : String) (valid : isIdentifier n) : Plain (.name n)
  | attr {base : Expr} (n : String) (plain : Plain base) (valid : isIdentifier n) : Plain (.attr base n)
  | index {base i : Expr} (plain : Plain base) (inner : Plain i) : Plain (.index base i)
  | call {callee : Expr} {args : List Expr} {named : List (String × Expr)} (plain : Plain callee)
      (each : ∀ e ∈ args, Plain e) (valid : ∀ p ∈ named, isIdentifier p.1) (values : ∀ p ∈ named, Plain p.2) :
      Plain (.call callee args named)
  | list {items : List Expr} (each : ∀ e ∈ items, Plain e) : Plain (.list items)
  | dict {entries : List (Expr × Expr)} (keys : ∀ p ∈ entries, Plain p.1) (values : ∀ p ∈ entries, Plain p.2) :
      Plain (.dict entries)
  | not {e : Expr} (plain : Plain e) : Plain (.not e)
  | neg {e : Expr} (plain : Plain e) (other : isNumber e = false) : Plain (.neg e)
  | bin (op : BinOp) {a b : Expr} (left : Plain a) (right : Plain b) : Plain (.bin op a b)
  | cmp (op : CmpOp) {a b : Expr} (left : Plain a) (right : Plain b) : Plain (.cmp op a b)
  | and {a b : Expr} (left : Plain a) (right : Plain b) : Plain (.and a b)
  | or {a b : Expr} (left : Plain a) (right : Plain b) : Plain (.or a b)

theorem level_le (e : Expr) : e.level ≤ 7 := by
  cases e with
  | bin op => cases op <;> exact Nat.le_of_ble_eq_true rfl
  | _ => exact Nat.le_of_ble_eq_true rfl

-- The text of an expression stands wherever an expression of its level can.
def Legible (e : Expr) : Prop := ∀ floor, Spells floor e.level e.code e

variable {e : Expr} {floor : Nat}

theorem enclosed_spells {need : Nat} (low : need ≤ 7) (legible : Legible e) : Spells floor need (enclosed need e e.code) e := by
  unfold enclosed
  split
  · exact spells_below (spells_paren (legible (floor + 1)) (level_le e)) (by decide) low
  · exact spells_below (legible floor) (level_le e) (by omega)

theorem legible_spells (legible : Legible e) : Spells floor 0 e.code e :=
  spells_below (legible floor) (level_le e) (Nat.zero_le _)

theorem legible_call {callee : Expr} {args : List Expr} {named : List (String × Expr)} (base : Legible callee)
    (each : ∀ e ∈ args, Legible e) (valid : ∀ p ∈ named, isIdentifier p.1) (values : ∀ p ∈ named, Legible p.2) :
    Legible (.call callee args named) := by
  intro floor
  have called : Spells floor 7 _ callee := enclosed_spells (by decide) base
  have whole := spells_call called (args.map fun e => (e.code, e))
    (named.map fun p => (p.1, p.2.code, p.2)) (by
      simp only [List.forall_mem_map]
      exact fun e member => legible_spells (each e member)) (by
      simp only [List.forall_mem_map]
      exact fun p member => ⟨(identifier_word (valid p member)).1,
        spells_denotes (legible_spells (values p member)) (by decide)⟩)
  simpa [level, code, codes_map, named_codes_map, Function.comp_def] using whole

theorem legible_list {items : List Expr} (each : ∀ e ∈ items, Legible e) : Legible (.list items) := by
  intro floor
  have whole : Spells floor 7 _ _ := spells_list (items.map fun e => (e.code, e)) (by
    simp only [List.forall_mem_map]
    exact fun e member => legible_spells (each e member))
  simpa [level, code, codes_map, Function.comp_def] using whole

theorem legible_dict {entries : List (Expr × Expr)} (keys : ∀ p ∈ entries, Legible p.1)
    (values : ∀ p ∈ entries, Legible p.2) : Legible (.dict entries) := by
  intro floor
  have whole : Spells floor 7 _ _ := spells_dict (entries.map fun p => ((p.1.code, p.1), p.2.code, p.2)) (by
    simp only [List.forall_mem_map]
    exact fun p member => ⟨legible_spells (keys p member), legible_spells (values p member)⟩)
  simpa [level, code, entry_codes_map, Function.comp_def] using whole

theorem legible_neg (legible : Legible e) (other : isNumber e = false) : Legible (.neg e) := by
  intro floor
  have operand : Spells floor 6 _ e := enclosed_spells (by decide) legible
  have whole := spells_minus (code (.neg e)) operand String.toList_append
  have kept : Parser.negate e = .neg e := by
    unfold Parser.negate
    split
    · cases other
    · cases other
    · rfl
  rwa [kept] at whole

theorem legible_attr {n : String} (plain : Plain e) (legible : Legible e) (valid : isIdentifier n) : Legible (.attr e n) := by
  intro floor
  cases number : isNumber e with
  | false => exact spells_attr (enclosed_spells (by decide) legible) valid number
  | true =>
    cases plain with
    | int m low =>
      obtain ⟨k, value⟩ := Int.eq_ofNat_of_zero_le low
      have spells : Spells floor 7 _ _ := spells_number_attr (n := k) (by have := m.toInt_lt; omega) valid
      have same : Int64.ofInt k = m := by rw [← value, Int64.ofInt_toInt]
      have text : code (.attr (.lit (.int m)) n) = toString k ++ "." ++ n := by rw [code, code, value]; rfl
      rwa [same, ← text] at spells
    | _ => cases number

theorem plain_legible (plain : Plain e) : Legible e := by
  induction plain with
  | int n low =>
    intro floor
    obtain ⟨k, value⟩ := Int.eq_ofNat_of_zero_le low
    have spells : Spells floor 7 _ _ := spells_nat k (by have := n.toInt_lt; omega)
    have same : Int64.ofInt k = n := by rw [← value, Int64.ofInt_toInt]
    have text : code (.lit (.int n)) = toString k := by rw [code, value]; rfl
    rwa [same, ← text] at spells
  | str s => exact fun floor => spells_quote s
  | bool flag => exact fun floor => Code.spells_flag flag
  | none => exact fun floor => Code.spells_none
  | name n valid => exact fun floor => spells_word n valid
  | attr n plain valid ih => exact legible_attr plain ih valid
  | index plain inner ih inside => exact fun floor => spells_index (enclosed_spells (by decide) ih) (legible_spells inside)
  | call plain each valid values ih items others => exact legible_call ih items valid others
  | list each ih => exact legible_list ih
  | dict keys values ih others => exact legible_dict ih others
  | not plain ih => exact fun floor => spells_not (enclosed_spells (by decide) ih)
  | neg plain other ih => exact legible_neg ih other
  | bin op left right first second =>
    have top : binLevel op + 1 ≤ 7 := by cases op <;> decide
    exact fun floor => spells_bin op (enclosed_spells (by omega) first) (enclosed_spells top second)
  | cmp op left right first second =>
    exact fun floor => spells_compare op (enclosed_spells (by decide) first) (enclosed_spells (by decide) second)
  | and left right first second =>
    intro floor
    have joined : Spells floor 1 _ (.and _ _) := spells_link (by decide) (Parser.consumes_token fun _ _ _ => rfl) (by decide) (by simp)
      (word_gap "and" ⟨'a', ['n', 'd'], by decide⟩) (enclosed_spells (by decide) first) (enclosed_spells (by decide) second)
    exact joined
  | or left right first second =>
    intro floor
    have joined : Spells floor 0 _ (.or _ _) := spells_link (by decide) (Parser.consumes_token fun _ _ _ => rfl) (by decide) (by simp)
      (word_gap "or" ⟨'o', ['r'], by decide⟩) (enclosed_spells (by decide) first) (enclosed_spells (by decide) second)
    exact joined

theorem parse_code (plain : Plain e) : Program.parse e.code = .ok ⟨[⟨1, .expr e⟩]⟩ :=
  parse_expression (legible_spells (plain_legible plain))

def lookup : Expr := .call (.attr (.lit (.int 2)) "power") [.neg (.bin .sub (.name "a") (.bin .sub (.name "b") (.name "c")))]
  [("of", .dict [(.lit .none, .list [.lit (.bool true)])])]

def guarded : Expr := .and (.not (.or (.cmp .notIn (.lit (.str "x")) (.name "a")) (.name "b"))) lookup

theorem guarded_read_back : guarded.Plain ∧
    guarded.code = "not (\"x\" not in a or b) and 2.power(-(a - (b - c)), of=\x7bNone: [True]\x7d)" ∧
    Program.parse guarded.code = .ok ⟨[⟨1, .expr guarded⟩]⟩ := by
  have a : Plain (.name "a") := .name _ (by decide)
  have b : Plain (.name "b") := .name _ (by decide)
  have difference : Plain (.bin .sub (.name "a") (.bin .sub (.name "b") (.name "c"))) :=
    .bin _ a (.bin _ b (.name _ (by decide)))
  have entry : Plain (.dict [(.lit .none, .list [.lit (.bool true)])]) :=
    .dict (by simpa using Plain.none) (by simpa using Plain.list (by simpa using Plain.bool true))
  have called : Plain lookup := .call (.attr _ (.int 2 (by decide)) (by decide))
    (by simpa using Plain.neg difference rfl) (by decide) (by simpa using entry)
  have plain : Plain guarded := .and (.not (.or (.cmp _ (.str _) a) b)) called
  exact ⟨plain, by decide +kernel, parse_code plain⟩

end Expr

end Flowstep.Script
