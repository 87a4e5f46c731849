import Flowstep.Proofs.Integers
import Flowstep.Proofs.Nearest
import Flowstep.Proofs.Scanning

/-!
Conditions on integers.
-/
namespace Flowstep.Script

open Decimal (nearest nearest_mono nearest_exact)

def CmpOp.truth (op : CmpOp) (a b : Int) : Bool :=
  match op with
  | .eq => a == b
  | .ne => a != b
  | op => op.holds (compare a b)

namespace Builtin

inductive Written (n : Int64) : Value → Prop where
  | number : Written n (.int n)
  | text : Written n (.str (toString n.toInt))

def conditions : List (String × CmpOp) := [("<", .lt), ("<=", .le), (">", .gt), (">=", .ge), ("==", .eq), ("!=", .ne)]

theorem int_chars (n : Int) : (toString n).toList = (if n < 0 then ['-'] else []) ++ Nat.toDigits 10 n.natAbs := by
  cases n with
  | ofNat n =>
    exact nat_chars n
  | negSucc n =>
    rw [if_pos (by simp)]
    exact negative_chars n

variable {a b : Int64} {l r : Value}

theorem read_word (a : Int64) : Decimal.readInt64? (toString a.toInt) = some a := by
  obtain ⟨c, cs, split⟩ := List.exists_cons_of_ne_nil (Nat.toDigits_ne_nil)
  have digits : ∀ d ∈ c :: cs, Decimal.isDigit d := fun d member => digit_chars a.toInt.natAbs d (split ▸ member)
  have value : Decimal.natOfDigits (c :: cs) = a.toInt.natAbs := by rw [← split, nat_digits]
  have held := held_word a
  have counted : Decimal.natOfDigitsUpTo UInt64.size (c :: cs) = a.toInt.natAbs := by
    rw [digits_up_to, value]
    rw [UInt64.size]
    unfold Held Word.least Word.greatest at held
    omega
  have signed : Decimal.splitSign (toString a.toInt).toList = (decide (a.toInt < 0), c :: cs) := by
    rw [int_chars, split]
    by_cases below : a.toInt < 0
    · rw [if_pos below, decide_eq_true below]
      rfl
    · rw [if_neg below, decide_eq_false below]
      exact split_sign_digit cs (digits c List.mem_cons_self)
  unfold Decimal.readInt64?
  rw [signed]
  dsimp only
  rw [counted, List.isEmpty_cons, List.all_eq_true.mpr digits, if_neg (by decide)]
  have whole : (if decide (a.toInt < 0) = true then -(a.toInt.natAbs : Int) else a.toInt.natAbs) = a.toInt := by
    by_cases below : a.toInt < 0
    · rw [if_pos (decide_eq_true below)]
      omega
    · rw [if_neg (by simpa using below)]
      omega
  rw [whole, word_of_held held, Int64.ofInt_toInt]

theorem integer_text (n : Int) : isIntegerText (toString n) = true := by
  have digits : !(Nat.toDigits 10 n.natAbs).isEmpty && (Nat.toDigits 10 n.natAbs).all Decimal.isDigit := by
    rw [Bool.and_eq_true, List.all_eq_true]
    exact ⟨by simp, digit_chars n.natAbs⟩
  unfold isIntegerText
  rw [int_chars]
  by_cases below : n < 0
  · rw [if_pos below]
    exact digits
  · rw [if_neg below, List.nil_append]
    split
    · rename_i rest same
      exact absurd (digit_chars n.natAbs '-' (by rw [same]; exact List.mem_cons_self)) (by decide)
    · exact digits

theorem operand_word (written : Written a l) : orderingOperand l = .int a := by
  cases written with
  | number => rfl
  | text =>
    rw [orderingOperand, if_pos (integer_text a.toInt), read_word]

theorem equal_words (left : Written a l) (right : Written b r) : conditionEq l r = decide (a = b) := by
  have texts : (toString a.toInt == toString b.toInt) = decide (a = b) := by
    rw [Bool.eq_iff_iff, beq_iff_eq, decide_eq_true_iff]
    refine ⟨fun same => Option.some.inj ?_, fun same => by rw [same]⟩
    rw [← read_word, same, read_word]
  cases left with
  | number =>
    cases right with
    | number => rfl
    | text => exact texts
  | text =>
    cases right with
    | number => exact texts
    | text => exact texts

theorem truth_of_compare {i j : Int} {m n : Int} (op : CmpOp) (same : compare i j = compare m n) : op.truth i j = op.truth m n := by
  have equal : (i == j) = (m == n) := by
    rw [Bool.eq_iff_iff, beq_iff_eq, beq_iff_eq, ← compare_eq_iff_eq, same, compare_eq_iff_eq]
  unfold CmpOp.truth
  split
  · exact equal
  · rw [bne, equal, bne]
  · rw [same]

theorem words_told (left : Written a l) (right : Written b r) {word : String} {op : CmpOp} (known : (word, op) ∈ conditions) :
    consequence ⟨[l, .str word, r], []⟩ = .ok (.bool (if op = .eq ∨ op = .ne then op.truth a.toInt b.toInt
        else op.truth (nearest a.toInt) (nearest b.toInt))) ∧
      compareValues op (.int a) (.int b) = .ok (op.truth (nearest a.toInt) (nearest b.toInt)) := by
  have ordered (condition : String) (op : CmpOp) : conditionOrder condition op l r =
      .ok (op.holds (compare (nearest a.toInt) (nearest b.toInt))) := by
    unfold conditionOrder
    dsimp only
    rw [operand_word left, operand_word right, order_words]
  have equal : conditionEq l r = (a.toInt == b.toInt) := by
    rw [equal_words left right, Bool.eq_iff_iff, decide_eq_true_iff, beq_iff_eq, Int64.toInt_inj]
  have told {word : String} {yes : Bool} (holds : conditionHolds l word r = .ok yes) :
      consequence ⟨[l, .str word, r], []⟩ = .ok (.bool yes) := by
    change (conditionHolds l word r >>= fun yes => .ok (Value.bool yes)) = _
    rw [holds]
    rfl
  have loose := loose_words a b
  have order := order_words a b
  simp only [conditions, List.mem_cons, List.not_mem_nil, or_false] at known
  rcases known with ⟨rfl, rfl⟩ | ⟨rfl, rfl⟩ | ⟨rfl, rfl⟩ | ⟨rfl, rfl⟩ | ⟨rfl, rfl⟩ | ⟨rfl, rfl⟩
  · exact ⟨told (ordered "<" .lt), by simp only [compareValues, order]; rfl⟩
  · exact ⟨told (ordered "<=" .le), by simp only [compareValues, order]; rfl⟩
  · exact ⟨told (ordered ">" .gt), by simp only [compareValues, order]; rfl⟩
  · exact ⟨told (ordered ">=" .ge), by simp only [compareValues, order]; rfl⟩
  · exact ⟨told (congrArg Except.ok equal), congrArg Except.ok loose⟩
  · exact ⟨told (congrArg (Except.ok !·) equal), congrArg (Except.ok !·) loose⟩

def Follows (a b : Int64) (l r : Value) : Prop :=
  ∀ word op, (word, op) ∈ conditions → consequence ⟨[l, .str word, r], []⟩ = .ok (.bool (op.truth a.toInt b.toInt)) ∧
    compareValues op (.int a) (.int b) = .ok (op.truth a.toInt b.toInt)

theorem nearest_compare {i j : Int} (apart : nearest i = nearest j → i = j) : compare (nearest i) (nearest j) = compare i j := by
  rcases lt_trichotomy i j with less | rfl | greater
  · have near : nearest i < nearest j := (nearest_mono less.le).lt_of_ne fun same => less.ne (apart same)
    rw [compare_lt_iff_lt.mpr less, compare_lt_iff_lt.mpr near]
  · rw [compare_eq_iff_eq.mpr rfl, compare_eq_iff_eq.mpr rfl]
  · have near : nearest j < nearest i := (nearest_mono greater.le).lt_of_ne fun same => greater.ne (apart same.symm).symm
    rw [compare_gt_iff_gt.mpr greater, compare_gt_iff_gt.mpr near]

theorem nearest_apart {i j : Int} (small : i.natAbs < 2 ^ 53) (near : nearest i = nearest j) : i = j := by
  have edge : nearest (2 ^ 53) = 2 ^ 53 ∧ nearest (-2 ^ 53) = -2 ^ 53 := by decide
  rw [nearest_exact small] at near
  by_cases short : j.natAbs < 2 ^ 53
  · rwa [nearest_exact short] at near
  rcases Int.lt_or_le j 0 with below | above
  · have := nearest_mono (show j ≤ -2 ^ 53 by omega)
    omega
  · have := nearest_mono (show 2 ^ 53 ≤ j by omega)
    omega

theorem integer_conditions_follow_order (left : Written a l) (right : Written b r) :
    (Follows a b l r ↔ (nearest a.toInt = nearest b.toInt → a = b)) ∧
      (min a.toInt.natAbs b.toInt.natAbs < 2 ^ 53 → Follows a b l r) ∧
      ∀ word op, (word, op) ∈ conditions →
        consequence ⟨[l, .str word, r], []⟩ = .ok (.bool (if op = .eq ∨ op = .ne then op.truth a.toInt b.toInt
          else op.truth (nearest a.toInt) (nearest b.toInt))) ∧
        compareValues op (.int a) (.int b) = .ok (op.truth (nearest a.toInt) (nearest b.toInt)) := by
  have follows (apart : nearest a.toInt = nearest b.toInt → a = b) : Follows a b l r := by
    intro word op known
    have same := truth_of_compare op (nearest_compare fun near => congrArg Int64.toInt (apart near))
    simpa only [same, ite_self] using words_told left right known
  refine ⟨⟨fun follows near => ?_, follows⟩, fun small => follows fun near => ?_, fun word op known => words_told left right known⟩
  · have known : ("==", CmpOp.eq) ∈ conditions := by decide
    have equal := (follows "==" .eq known).2.symm.trans (words_told left right known).2
    rw [near] at equal
    simpa [CmpOp.truth, Int64.toInt_inj] using equal
  · rcases min_lt_iff.mp small with first | second
    · exact Int64.toInt_inj.mp (nearest_apart first near)
    · exact (Int64.toInt_inj.mp (nearest_apart second near.symm)).symm

theorem neighbours_follow : Follows 9007199254740991 9007199254740992 (.str "9007199254740991") (.int 9007199254740992) :=
  (integer_conditions_follow_order .text .number).2.1 (by decide)

theorem large_neighbours_are_alike :
    consequence ⟨[.int 9007199254740992, .str "<", .int 9007199254740993], []⟩ = .ok (.bool false) ∧
      consequence ⟨[.int 9007199254740992, .str "==", .int 9007199254740993], []⟩ = .ok (.bool false) ∧
      consequence ⟨[.int 9007199254740992, .str ">", .int 9007199254740993], []⟩ = .ok (.bool false) ∧
      compareValues .eq (.int 9007199254740992) (.int 9007199254740993) = .ok true := ⟨rfl, rfl, rfl, rfl⟩

end Builtin

end Flowstep.Script
