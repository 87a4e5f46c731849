import Flowstep.Proofs.Outcome
import Flowstep.Script.Builtin
import Mathlib.Data.Prod.Lex

/-!
The least and the greatest of some values.
-/
namespace Flowstep

structure Orders {α : Type} (cmp : α → α → Option Ordering) : Prop where
  swap : ∀ a b ord, cmp a b = some ord → cmp b a = some ord.swap
  chain : ∀ a b c first second, cmp a b = some first → cmp b c = some second →
    first = .eq ∨ second = .eq ∨ first = second → cmp a c = some (first.then second)

def byWorth {α β : Type} [Ord β] (worth : α → Option β) (a b : α) : Option Ordering :=
  match worth a, worth b with
  | some x, some y => some (compare x y)
  | _, _ => none

theorem by_worth_orders {α β : Type} [Ord β] [Std.TransOrd β] (worth : α → Option β) : Orders (byWorth worth) where
  swap a b ord := by
    unfold byWorth
    cases worth a <;> cases worth b <;> simp only [reduceCtorEq, false_imp_iff, Option.some.injEq]
    rintro rfl
    rw [Std.OrientedOrd.eq_swap]
  chain a b c first second := by
    unfold byWorth
    cases worth a <;> cases worth b <;> cases worth c <;>
      simp only [reduceCtorEq, false_imp_iff, implies_true, Option.some.injEq]
    rename_i x y z
    rintro rfl rfl (same | same | same)
    · rw [same, Std.TransCmp.congr_left same, Ordering.eq_then]
    · rw [same, Ordering.then_eq, Std.TransCmp.congr_right same]
    · rw [← same]
      cases ord : compare x y with
      | lt => exact Std.TransCmp.lt_trans ord (same.symm.trans ord)
      | eq => exact (Std.TransCmp.congr_left ord).trans (same.symm.trans ord)
      | gt => exact Std.TransCmp.gt_trans ord (same.symm.trans ord)

namespace Decimal

open Float.Model (UnpackedFloat)

def rank? : UnpackedFloat → Option (ℤ ×ₗ ℤ ×ₗ ℤ)
  | .notANumber => none
  | .infinity .negative => some (toLex (-2, toLex (0, 0)))
  | .finite .negative m q _ => some (toLex (-1, toLex (-q, -m)))
  | .zero _ => some (toLex (0, toLex (0, 0)))
  | .finite .positive m q _ => some (toLex (1, toLex (q, m)))
  | .infinity .positive => some (toLex (2, toLex (0, 0)))

theorem compare_rank (u v : UnpackedFloat) : u.compare v = byWorth rank? u v := by
  have opposite (a b : ℤ) : compare (-a) (-b) = (compare a b).swap := by
    rw [← Std.OrientedOrd.eq_swap]
    simp only [Int.compare_eq_ite_le, Int.neg_le_neg_iff]
  have counted (m n : ℕ) : compare m n = compare (m : ℤ) n := by
    simp only [Int.compare_eq_ite_le, Nat.compare_eq_ite_le, Int.ofNat_le]
  rcases u with (_ | _) | _ | _ | ⟨_ | _, m, q, _⟩ <;> rcases v with (_ | _) | _ | _ | ⟨_ | _, n, k, _⟩ <;> try rfl
  · change some ((compare q k).then (compare m n)).swap = some ((compare (-q) (-k)).then (compare (-(m : ℤ)) (-n)))
    rw [Ordering.swap_then, opposite, opposite, counted]
  · change some ((compare q k).then (compare m n)) = some ((compare q k).then (compare (m : ℤ) n))
    rw [counted]

end Decimal

namespace Script.Value

open Decimal (rank? compare_rank)

def worth? (v : Value) : Option (ℤ ×ₗ ℤ ×ₗ ℤ) := v.asFloat?.bind (rank? ·.toModel.unpack)

theorem order_float (x y : Float) : orderFloat x y = byWorth (rank? ·.toModel.unpack) x y := by
  have less (x y : Float) : x < y ↔ byWorth (rank? ·.toModel.unpack) x y = some .lt := by
    change _ ↔ byWorth rank? x.toModel.unpack y.toModel.unpack = _
    rw [← compare_rank, ← beq_iff_eq]
    exact decide_eq_true_iff
  have same : (x == y) = true ↔ byWorth (rank? ·.toModel.unpack) x y = some .eq := by
    change (x.toModel.unpack.compare y.toModel.unpack == some .eq) = true ↔ _
    rw [compare_rank, beq_iff_eq]
    rfl
  have turned := (by_worth_orders fun x : Float => rank? x.toModel.unpack).swap
  simp only [orderFloat, less, same]
  cases ord : byWorth (rank? ·.toModel.unpack) x y with
  | none =>
    have none : byWorth (rank? ·.toModel.unpack) y x ≠ some .lt := fun ord' => by
      cases ord.symm.trans (turned y x _ ord')
    simp [none]
  | some ord' => cases ord' <;> simp [turned x y _ ord]

theorem order_numbers {x y : Value} {i j : ℤ ×ₗ ℤ ×ₗ ℤ} (left : x.worth? = some i) (right : y.worth? = some j) :
    x.order y = some (compare i j) := by
  have worth : byWorth worth? x y = some (compare i j) := by rw [byWorth, left, right]
  unfold order
  split
  · cases left
  · cases left
  · rw [← worth, byWorth, worth?, worth?]
    cases x.asFloat? <;> cases y.asFloat? <;> simp only [Option.bind_none, order_float]
    · split <;> simp_all
    · rfl

theorem order_cases {x y : Value} {ord : Ordering} (given : x.order y = some ord) :
    (∃ a b, x = .str a ∧ y = .str b) ∨ (∃ as bs, x = .list as ∧ y = .list bs ∧ orderItems as bs = some ord) ∨
      ∃ i j, x.worth? = some i ∧ y.worth? = some j ∧ compare i j = ord := by
  unfold order at given
  split at given
  · exact .inl ⟨_, _, rfl, rfl⟩
  · exact .inr (.inl ⟨_, _, rfl, rfl, given⟩)
  · refine .inr (.inr ?_)
    unfold worth?
    split at given
    · rename_i a b left right
      rw [order_float, byWorth] at given
      split at given
      · exact ⟨_, _, by rw [left]; assumption, by rw [right]; assumption, Option.some.inj given⟩
      · cases given
    · cases given

theorem order_items_cons {a b : Value} {as bs : List Value} {ord : Ordering} : orderItems (a :: as) (b :: bs) = some ord ↔
    ∃ first, a.order b = some first ∧ if first = .eq then orderItems as bs = some ord else first = ord := by
  rw [orderItems]
  cases a.order b with
  | none => simp
  | some first => cases first <;> simp

mutual

theorem order_swap (x y : Value) (ord : Ordering) (given : x.order y = some ord) : y.order x = some ord.swap := by
  rcases order_cases given with ⟨a, b, rfl, rfl⟩ | ⟨as, bs, rfl, rfl, items⟩ | ⟨i, j, left, right, rfl⟩
  · exact (by_worth_orders some).swap a b ord given
  · rw [order]
    exact items_swap items
  · rw [order_numbers right left, Std.OrientedOrd.eq_swap]

theorem items_swap {as bs : List Value} {ord : Ordering} (given : orderItems as bs = some ord) :
    orderItems bs as = some ord.swap := by
  match as, bs with
  | [], [] | [], _ :: _ | _ :: _, [] => cases given; rfl
  | a :: as, b :: bs =>
    obtain ⟨first, heads, rest⟩ := order_items_cons.mp given
    refine order_items_cons.mpr ⟨first.swap, order_swap a b first heads, ?_⟩
    cases first with
    | eq => exact items_swap rest
    | _ => exact congrArg Ordering.swap rest

end

mutual

theorem order_chain (x y z : Value) (first second : Ordering) (left : x.order y = some first) (right : y.order z = some second)
    (alike : first = .eq ∨ second = .eq ∨ first = second) : x.order z = some (first.then second) := by
  rcases order_cases left with ⟨a, b, rfl, rfl⟩ | ⟨as, bs, rfl, rfl, items⟩ | ⟨i, j, worthX, worthY, numbers⟩ <;>
    obtain ⟨_, c, same, rfl⟩ | ⟨_, cs, same, rfl, others⟩ | ⟨j', k, worthY', worthZ, others⟩ := order_cases right
  · exact (by_worth_orders some).chain a b c first second left right alike
  · cases same
  · cases worthY'
  · cases same
  · cases same
    rw [order]
    exact items_chain items others alike
  · cases worthY'
  · cases worthY.symm.trans (congrArg worth? same)
  · cases worthY.symm.trans (congrArg worth? same)
  · cases worthY.symm.trans worthY'
    rw [order_numbers worthX worthZ]
    exact (by_worth_orders some).chain i j k first second (congrArg some numbers) (congrArg some others) alike

theorem items_chain {as bs cs : List Value} {first second : Ordering} (left : orderItems as bs = some first)
    (right : orderItems bs cs = some second) (alike : first = .eq ∨ second = .eq ∨ first = second) :
    orderItems as cs = some (first.then second) := by
  match as, bs, cs with
  | [], [], [] | [], [], _ :: _ | _ :: _, [], [] => cases left; cases right; rfl
  | [], _ :: _, _ :: _ => cases left; rfl
  | [], _ :: _, [] | _ :: _, [], _ :: _ => cases left; cases right; simp at alike
  | _ :: _, _ :: _, [] =>
    cases right
    cases first <;> simp_all [orderItems]
  | a :: as, b :: bs, c :: cs =>
    obtain ⟨p, leftHeads, leftRest⟩ := order_items_cons.mp left
    obtain ⟨q, rightHeads, rightRest⟩ := order_items_cons.mp right
    have heads := order_chain a b c p q leftHeads rightHeads
    rw [order_items_cons]
    -- The first place at which one of the two comparisons is decided decides the third one.
    cases p with
    | eq =>
      refine ⟨q, heads (.inl rfl), ?_⟩
      cases q with
      | eq => exact items_chain leftRest rightRest alike
      | _ =>
        cases rightRest
        rcases alike with rfl | no | rfl
        · rfl
        · cases no
        · rfl
    | _ =>
      cases leftRest
      cases q with
      | eq => exact ⟨_, heads (.inr (.inl rfl)), rfl⟩
      | _ =>
        cases rightRest
        exact ⟨_, heads alike, rfl⟩

end

theorem orders : Orders order := ⟨order_swap, order_chain⟩

end Script.Value

namespace Script.Builtin

open Value (order_swap order_chain)

variable {want : Ordering} {best : Value}

structure Leads (want : Ordering) (front : List Value) (best : Value) (back : List Value) : Prop where
  before : ∀ v ∈ front, best.order v = some want
  after : ∀ v ∈ back, ∃ ord, v.order best = some ord ∧ ord ≠ want

theorem overtakes {front back : List Value} {leader : Value} (choice : want ≠ .eq) (leads : Leads want front leader back)
    (better : best.order leader = some want) : Leads want (front ++ leader :: back) best [] := by
  refine ⟨fun v member => ?_, fun _ member => nomatch member⟩
  rcases List.mem_append.mp member with earlier | later
  · have chained := order_chain best leader v want want better (leads.before v earlier) (.inr (.inr rfl))
    rwa [Ordering.then_self] at chained
  · rcases List.mem_cons.mp later with rfl | later
    · exact better
    · obtain ⟨ord, compared, other⟩ := leads.after v later
      have chained := order_chain best leader v want ord.swap better (order_swap v leader ord compared)
        (by cases want <;> cases ord <;> simp_all)
      cases want <;> simp_all

theorem best_of_leads (choice : want ≠ .eq) (rest : List Value) : ∀ (front back : List Value) (leader : Value),
    Leads want front leader back → bestOf want leader rest = .ok best →
    ∃ front' back', front ++ leader :: back ++ rest = front' ++ best :: back' ∧ Leads want front' best back' := by
  induction rest with
  | nil =>
    intro front back leader leads found
    cases found
    exact ⟨front, back, List.append_nil _, leads⟩
  | cons v rest ih =>
    intro front back leader leads found
    rw [bestOf] at found
    split at found
    · rename_i ord compared
      by_cases better : ord = want
      · subst better
        rw [if_pos (beq_self_eq_true ord)] at found
        simpa using ih (front ++ leader :: back) [] v (overtakes choice leads compared) found
      · rw [if_neg (by simpa using better)] at found
        obtain ⟨front', back', whole, leads'⟩ := ih front (back ++ [v]) leader ⟨leads.before, fun u member => by
          rcases List.mem_append.mp member with earlier | last
          · exact leads.after u earlier
          · exact List.mem_singleton.mp last ▸ ⟨ord, compared, better⟩⟩ found
        exact ⟨front', back', by simpa using whole, leads'⟩
    · cases found

def candidates (args : Args) : Except Stop (List Value) :=
  match args.positional with
  | [single] => iterate single
  | many => .ok many

theorem extremum_leads (choice : want ≠ .eq) {name : String} {args : Args} (found : extremum name want args = .ok best) :
    ∃ front back, candidates args = .ok (front ++ best :: back) ∧ Leads want front best back := by
  obtain ⟨first, rest, given, found⟩ : ∃ first rest, candidates args = .ok (first :: rest) ∧
      bestOf want first rest = .ok best := by
    obtain ⟨_ | ⟨single, _ | ⟨second, more⟩⟩, keywords⟩ := args <;> obtain ⟨items, given, found⟩ := bind_ok found <;>
      cases items with
      | nil => cases found
      | cons first rest => exact ⟨first, rest, given, found⟩
  obtain ⟨front, back, whole, leads⟩ := best_of_leads choice rest [] [] first ⟨nofun, nofun⟩ found
  exact ⟨front, back, given.trans (congrArg Except.ok whole), leads⟩

theorem extremum_is_first_best {name : String} {args : Args} {best : Value}
    (which : (name, want) ∈ [("min", Ordering.lt), ("max", .gt)]) (found : call name args = .ok best) :
    Orders Value.order ∧ ∃ front back, candidates args = .ok (front ++ best :: back) ∧
      (∀ v ∈ front ++ back, ∃ ord, v.order best = some ord ∧ ord ≠ want) ∧ ∀ v ∈ front, best.order v = some want := by
  have choice : want ≠ .eq := by
    rintro rfl
    simp at which
  obtain ⟨front, back, given, leads⟩ : ∃ front back, candidates args = .ok (front ++ best :: back) ∧
      Leads want front best back := by
    simp only [List.mem_cons, Prod.mk.injEq, List.not_mem_nil, or_false] at which
    obtain ⟨rfl, rfl⟩ | ⟨rfl, rfl⟩ := which <;> exact extremum_leads choice found
  refine ⟨⟨order_swap, order_chain⟩, front, back, given, fun v member => ?_, leads.before⟩
  rcases List.mem_append.mp member with earlier | later
  · refine ⟨want.swap, order_swap best v want (leads.before v earlier), ?_⟩
    cases want <;> simp_all
  · exact leads.after v later

-- What stands behind the first difference does not count, and could not be compared.
theorem list_with_hidden_items_is_least :
    ∃ front back, candidates ⟨[.list [.list [.int 2, .none], .list [.bool true, .none], .list [.int 3]]], []⟩ =
        .ok (front ++ .list [.bool true, .none] :: back) ∧
      (∀ v ∈ front ++ back, ∃ ord, v.order (.list [.bool true, .none]) = some ord ∧ ord ≠ .lt) ∧
      ∀ v ∈ front, Value.order (.list [.bool true, .none]) v = some .lt :=
  (extremum_is_first_best (.head _) rfl).2

end Script.Builtin

end Flowstep
