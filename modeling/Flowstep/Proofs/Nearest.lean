import Flowstep.Proofs.Extrema
import Flowstep.Proofs.Scaling

/-!
Integers as doubles.
-/
namespace Flowstep

namespace Decimal

open Float.Model
open Float.Model.UnpackedFloat

variable {n m s : Nat}

-- What has been shifted out of a number: the rest of it against one half, and whether it counts at all.
structure Shifted (n s : Nat) (e : ExtendedMantissa) : Prop where
  mantissa : e.mantissa = n / 2 ^ s
  half : e.roundBit = true ↔ 2 ^ s ≤ 2 * (n % 2 ^ s)
  others : e.stickyBit = true ↔ n % 2 ^ s ≠ 0 ∧ 2 * (n % 2 ^ s) ≠ 2 ^ s

theorem shift_one {e : ExtendedMantissa} (shifted : Shifted n s e) : Shifted n (s + 1) e.shiftRightOne := by
  obtain ⟨mantissa, half, others⟩ := shifted
  have rest : n % 2 ^ (s + 1) = n % 2 ^ s + 2 ^ s * (n / 2 ^ s % 2) := by rw [Nat.pow_succ, Nat.mod_mul]
  refine ⟨?_, ?_, ?_⟩
  · rw [ExtendedMantissa.shiftRightOne, mantissa, Nat.div_div_eq_div_mul, ← Nat.pow_succ]
  · rw [ExtendedMantissa.shiftRightOne, rest, bne_iff_ne]
    rcases Nat.mod_two_eq_zero_or_one (n / 2 ^ s) with even | odd
    · rw [even]; omega
    · rw [odd]; omega
  · rw [ExtendedMantissa.shiftRightOne, Bool.or_eq_true, half, others, rest]
    rcases Nat.mod_two_eq_zero_or_one (n / 2 ^ s) with even | odd
    · rw [even]; omega
    · rw [odd]; omega

theorem shift_exact (n s : Nat) : Shifted n s (ExtendedMantissa.ofMantissaAndAccuracy n .exact >>> s) := by
  change Shifted n s (Nat.repeat ExtendedMantissa.shiftRightOne s _)
  induction s with
  | zero =>
    refine ⟨?_, ?_, ?_⟩ <;> simp [Nat.repeat, ExtendedMantissa.ofMantissaAndAccuracy, Nat.mod_one]
  | succ s ih => exact shift_one ih

theorem shifted_rounded {e : ExtendedMantissa} (shifted : Shifted n s e) : e.roundedMantissa = divEven n (2 ^ s) := by
  obtain ⟨mantissa, half, others⟩ := shifted
  obtain ⟨whole, round, sticky⟩ := e
  dsimp only at mantissa
  rw [divEven]
  dsimp only [ExtendedMantissa.roundedMantissa]
  cases round <;> cases sticky <;>
    simp only [ExtendedMantissa.accuracy, Accuracy.roundToNearestEven, Bool.false_eq_true, false_iff, true_iff] at half others ⊢ <;>
    repeat' split
  all_goals omega

theorem div_even_mono (d : Nat) (le : m ≤ n) : divEven m d ≤ divEven n d := by
  have quotients : m / d ≤ n / d := Nat.div_le_div_right le
  have upper := (div_even_bounds m d).2
  have lower := (div_even_bounds n d).1
  by_cases same : m / d = n / d
  · have left := Nat.div_add_mod m d
    have right := Nat.div_add_mod n d
    rw [same] at left
    unfold divEven
    dsimp only
    repeat' split
    all_goals omega
  · omega

theorem div_even_places {t : Nat} (log : m.log2 = 52 + t) : 2 ^ 52 ≤ divEven m (2 ^ t) ∧ divEven m (2 ^ t) ≤ 2 ^ 53 := by
  have some : m ≠ 0 := by
    rintro rfl
    simp at log
    omega
  have least := Nat.log2_self_le some
  have most := @Nat.lt_log2_self m
  have unit : 0 < 2 ^ t := Nat.pow_pos (by decide)
  obtain ⟨under, exceeds⟩ := div_even_bounds m (2 ^ t)
  rw [log, Nat.pow_add] at least
  rw [log, Nat.add_right_comm, Nat.pow_add] at most
  have first : 2 ^ 52 ≤ m / 2 ^ t := (Nat.le_div_iff_mul_le unit).mpr least
  have second : m / 2 ^ t < 2 ^ 53 := (Nat.div_lt_iff_lt_mul unit).mpr most
  omega

theorem round_exact (sign : Sign) (q : Int) {t : Nat} (log : m.log2 = 52 + t) (least : -1074 ≤ q + t) :
    ∃ k p, ∃ filled : 0 < k, roundWithAccuracy .binary64 sign m q .exact = .finite sign k p filled ∧
      2 ^ 52 ≤ k ∧ k < 2 ^ 53 ∧ q + t ≤ p ∧ p ≤ q + t + 1 ∧ k * 2 ^ (p - (q + t)).toNat = divEven m (2 ^ t) := by
  obtain ⟨above, below⟩ := div_even_places log
  have first : shiftToTargetExponent .binary64 m q .exact = (ExtendedMantissa.ofMantissaAndAccuracy m .exact >>> t, q + t) := by
    unfold shiftToTargetExponent shiftToExponent
    dsimp only
    rw [target_places, totalExponent, log, show (max (((52 + t : Nat) : Int) + 1 + q - 53) (-1074) - q).toNat = t by omega]
  unfold roundWithAccuracy
  dsimp only
  rw [first]
  rw [shifted_rounded (shift_exact m t)]
  generalize divEven m (2 ^ t) = r at *
  unfold shiftToTargetExponent shiftToExponent
  dsimp only
  rw [target_places, totalExponent, shifted_mantissa, extended_mantissa]
  by_cases full : r = 2 ^ 53
  · subst full
    have log : (2 ^ 53).log2 = 53 := Nat.log2_two_pow
    rw [log, show (max (((53 : Nat) : Int) + 1 + (q + t) - 53) (-1074) - (q + t)).toNat = 1 by omega]
    exact ⟨2 ^ 52, q + t + 1, by decide, rfl, by decide, by decide, by omega, by omega, by
      rw [show (q + t + 1 - (q + t)).toNat = 1 by omega]; rfl⟩
  · have log : r.log2 = 52 := (Nat.log2_eq_iff (by omega)).mpr ⟨above, by omega⟩
    rw [log, show (max (((52 : Nat) : Int) + 1 + (q + t) - 53) (-1074) - (q + t)).toNat = 0 by omega, dif_neg (by omega)]
    exact ⟨r, q + t, by omega, by simp, above, by omega, by omega, by omega, by simp⟩

def nearestCount (n : Nat) : Nat := divEven n (2 ^ (n.log2 - 52)) * 2 ^ (n.log2 - 52)

theorem div_even_one (n : Nat) : divEven n 1 = n := by simp [divEven, Nat.mod_one]

structure Stands (k : Nat) (p : Int) (n : Nat) : Prop where
  normal : 2 ^ 52 ≤ k
  short : k < 2 ^ 53
  least : -52 ≤ p
  most : p ≤ 12
  worth : k * 2 ^ (p + 52).toNat = n * 2 ^ 52

theorem round_count (sign : Sign) (some : n ≠ 0) (fits : n < 2 ^ 64) : ∃ k p, ∃ filled : 0 < k,
    UnpackedFloat.round .binary64 sign n 0 = .finite sign k p filled ∧ Stands k p (nearestCount n) := by
  have small : n.log2 < 64 := (Nat.log2_lt some).mpr fits
  unfold UnpackedFloat.round decreaseExponent
  dsimp only
  rw [target_places, totalExponent, nearestCount]
  rcases Nat.le_total n.log2 52 with le | le
  · obtain ⟨s, places⟩ : ∃ s, n.log2 + s = 52 := ⟨52 - n.log2, by omega⟩
    have log : (n * 2 ^ s).log2 = 52 + 0 := by rw [log_shift n s some, places]
    rw [show (0 - max ((n.log2 : Int) + 1 + 0 - 53) (-1074)).toNat = s by omega, Nat.shiftLeft_eq,
      show n.log2 - 52 = 0 by omega, Nat.pow_zero, div_even_one, Nat.mul_one]
    obtain ⟨k, p, filled, same, normal, short, above, below, worth⟩ := round_exact sign (0 - s : Int) log (by omega)
    rw [Nat.pow_zero, div_even_one] at worth
    refine ⟨k, p, filled, same, normal, short, by omega, by omega, ?_⟩
    calc k * 2 ^ (p + 52).toNat = k * 2 ^ (p - (0 - (s : Int) + (0 : Nat))).toNat * 2 ^ (52 - s) := by
          rw [Nat.mul_assoc, ← Nat.pow_add]; congr 2; omega
      _ = n * 2 ^ 52 := by rw [worth, Nat.mul_assoc, ← Nat.pow_add]; congr 2; omega
  · obtain ⟨t, places⟩ : ∃ t, n.log2 = 52 + t := ⟨n.log2 - 52, by omega⟩
    rw [show (0 - max ((n.log2 : Int) + 1 + 0 - 53) (-1074)).toNat = 0 by omega, show n.log2 - 52 = t by omega]
    obtain ⟨k, p, filled, same, normal, short, above, below, worth⟩ := round_exact sign 0 places (by omega)
    refine ⟨k, p, filled, same, normal, short, by omega, by omega, ?_⟩
    calc k * 2 ^ (p + 52).toNat = k * 2 ^ (p - (0 + (t : Int))).toNat * 2 ^ (t + 52) := by
          rw [Nat.mul_assoc, ← Nat.pow_add]; congr 2; omega
      _ = divEven n (2 ^ t) * 2 ^ t * 2 ^ 52 := by rw [worth, Nat.pow_add, Nat.mul_assoc]

theorem nearest_count_exact (short : n < 2 ^ 53) : nearestCount n = n := by
  rcases Nat.eq_zero_or_pos n with rfl | some
  · rfl
  have log : n.log2 < 53 := (Nat.log2_lt (by omega)).mpr short
  rw [nearestCount, show n.log2 - 52 = 0 by omega, Nat.pow_zero, div_even_one, Nat.mul_one]

theorem nearest_count_between (some : n ≠ 0) : 2 ^ n.log2 ≤ nearestCount n ∧ nearestCount n ≤ 2 ^ (n.log2 + 1) := by
  rcases Nat.lt_or_ge n (2 ^ 53) with short | long
  · rw [nearest_count_exact short]
    exact ⟨Nat.log2_self_le some, Nat.lt_log2_self.le⟩
  · obtain ⟨t, places⟩ : ∃ t, n.log2 = 52 + t := ⟨n.log2 - 52, by have := (Nat.le_log2 some).mpr long; omega⟩
    obtain ⟨above, below⟩ := div_even_places places
    rw [nearestCount, places, Nat.add_sub_cancel_left, Nat.add_right_comm, Nat.pow_add, Nat.pow_add]
    exact ⟨Nat.mul_le_mul_right _ above, Nat.mul_le_mul_right _ below⟩

theorem nearest_count_mono (le : m ≤ n) : nearestCount m ≤ nearestCount n := by
  rcases Nat.eq_zero_or_pos m with rfl | some
  · exact Nat.zero_le _
  rcases (log_mono le).lt_or_eq with less | same
  · calc nearestCount m ≤ 2 ^ (m.log2 + 1) := (nearest_count_between (by omega)).2
      _ ≤ 2 ^ n.log2 := Nat.pow_le_pow_right (by decide) less
      _ ≤ nearestCount n := (nearest_count_between (by omega)).1
  · rw [nearestCount, same]
    exact Nat.mul_le_mul_right _ (div_even_mono _ le)

def nearest (n : Int) : Int := n.sign * nearestCount n.natAbs

theorem nearest_mono {i j : Int} (le : i ≤ j) : nearest i ≤ nearest j := by
  unfold nearest
  rcases lt_trichotomy i 0 with negative | rfl | positive
  · rw [Int.sign_eq_neg_one_of_neg negative]
    rcases lt_trichotomy j 0 with low | rfl | high
    · have := nearest_count_mono (show j.natAbs ≤ i.natAbs by omega)
      rw [Int.sign_eq_neg_one_of_neg low]
      omega
    · simp
    · rw [Int.sign_eq_one_of_pos high]
      omega
  · rcases le.eq_or_lt with rfl | high
    · exact Int.le_refl _
    · rw [Int.sign_eq_one_of_pos high, Int.sign_zero]
      omega
  · have := nearest_count_mono (show i.natAbs ≤ j.natAbs by omega)
    rw [Int.sign_eq_one_of_pos positive, Int.sign_eq_one_of_pos (by omega)]
    omega

theorem nearest_exact {i : Int} (short : i.natAbs < 2 ^ 53) : nearest i = i := by
  rw [nearest, nearest_count_exact short, Int.sign_mul_natAbs]

inductive Ranks : ℤ ×ₗ ℤ ×ₗ ℤ → Int → Prop where
  | below {k n : Nat} {p : Int} (stands : Stands k p n) : Ranks (toLex (-1, toLex (-p, -k))) (-n)
  | zero : Ranks (toLex (0, toLex (0, 0))) 0
  | above {k n : Nat} {p : Int} (stands : Stands k p n) : Ranks (toLex (1, toLex (p, k))) n

variable {k l n m : Nat} {p q : Int}

theorem stands_positive (stands : Stands k p n) : 0 < n := by
  have some : 0 < n * 2 ^ 52 := by
    rw [← stands.worth]
    exact Nat.mul_pos (Nat.lt_of_lt_of_le (by decide) stands.normal) (Nat.pow_pos (by decide))
  omega

theorem stands_lt (left : Stands k p n) (right : Stands l q m) (less : p < q ∨ p = q ∧ k < l) : n < m := by
  refine Nat.lt_of_mul_lt_mul_right (a := 2 ^ 52) ?_
  rw [← left.worth, ← right.worth]
  rcases less with less | ⟨rfl, less⟩
  · have least := left.least
    calc k * 2 ^ (p + 52).toNat < 2 ^ 53 * 2 ^ (p + 52).toNat := Nat.mul_lt_mul_of_pos_right left.short (Nat.pow_pos (by decide))
      _ = 2 ^ 52 * 2 ^ (p + 53).toNat := by rw [← Nat.pow_add, ← Nat.pow_add]; congr 1; omega
      _ ≤ l * 2 ^ (q + 52).toNat := Nat.mul_le_mul right.normal (Nat.pow_le_pow_right (by decide) (by omega))
  · exact Nat.mul_lt_mul_of_pos_right less (Nat.pow_pos (by decide))

variable {r t : ℤ ×ₗ ℤ ×ₗ ℤ} {i j : Int}

theorem ranks_lt (left : Ranks r i) (right : Ranks t j) (less : r < t) : i < j := by
  cases left with
  | below first =>
    have := stands_positive first
    cases right with
    | below second =>
      have := stands_lt second first (by simpa [Prod.Lex.toLex_lt_toLex, eq_comm] using less)
      omega
    | zero => omega
    | above second => omega
  | zero =>
    cases right with
    | below second => simp [Prod.Lex.toLex_lt_toLex] at less
    | zero => simp at less
    | above second => exact_mod_cast stands_positive second
  | above first =>
    cases right with
    | above second => exact_mod_cast stands_lt first second (by simpa [Prod.Lex.toLex_lt_toLex] using less)
    | _ => simp [Prod.Lex.toLex_lt_toLex] at less

theorem ranks_same (left : Ranks r i) (right : Ranks t j) (same : r = t) : i = j := by
  have worth {k l n m : Nat} {p q : Int} (left : Stands k p n) (right : Stands l q m) (same : p = q ∧ k = l) : n = m := by
    have := left.worth
    have := right.worth
    obtain ⟨rfl, rfl⟩ := same
    omega
  cases left <;> cases right <;> simp only [toLex_inj, Prod.mk.injEq, neg_inj, Int.natCast_inj] at same
  case below.below first _ _ _ second => rw [worth first second same.2]
  case above.above first _ _ _ second => rw [worth first second same.2]
  case zero.zero => rfl
  all_goals omega

theorem ranks_compare (left : Ranks r i) (right : Ranks t j) : compare r t = compare i j := by
  rcases lt_trichotomy r t with less | rfl | greater
  · rw [compare_lt_iff_lt.mpr less, compare_lt_iff_lt.mpr (ranks_lt left right less)]
  · rw [ranks_same left right rfl, compare_eq_iff_eq.mpr rfl, compare_eq_iff_eq.mpr rfl]
  · rw [compare_gt_iff_gt.mpr greater, compare_gt_iff_gt.mpr (ranks_lt right left greater)]

theorem magnitude (w : Int64) : (if w < 0 then -w else w).toUInt64.toNat = w.toInt.natAbs := by
  have bits := BitVec.toInt_eq_toNat_cond w.toBitVec
  have same : w.toBitVec.toInt = w.toInt := rfl
  split
  · rename_i below
    rw [Int64.lt_iff_toInt_lt] at below
    change (-w.toBitVec).toNat = _
    rw [BitVec.toNat_neg]
    change w.toInt < 0 at below
    split at bits <;> omega
  · rename_i above
    rw [Int64.lt_iff_toInt_lt] at above
    change ¬w.toInt < 0 at above
    change w.toBitVec.toNat = _
    split at bits <;> omega

theorem count_parts (u : UInt64) (some : u.toNat ≠ 0) : ∃ k p, ∃ filled : 0 < k,
    u.toFloat = ofParts .positive k p filled ∧ Stands k p (nearestCount u.toNat) := by
  obtain ⟨k, p, filled, same, stands⟩ := round_count .positive some u.toNat_lt
  refine ⟨k, p, filled, ?_, stands⟩
  have rounded : UnpackedFloat.ofUInt64 .binary64 u = .finite .positive k p filled := by
    rw [← same, UnpackedFloat.ofUInt64, UnpackedFloat.ofNat, UnpackedFloat.ofInt, UnpackedFloat.normalize,
      Int.compare_eq_gt.mpr (by omega)]
    rfl
  change Float.ofModel (.pack (UnpackedFloat.ofUInt64 .binary64 u)) = _
  rw [rounded]
  rfl

theorem word_ranks (w : Int64) : ∃ r, rank? (Word.toFloat w).toModel.unpack = some r ∧ Ranks r (nearest w.toInt) := by
  have size := magnitude w
  have sign : w < 0 ↔ w.toInt < 0 := Int64.lt_iff_toInt_lt
  rw [Word.toFloat, nearest]
  by_cases zero : w.toInt = 0
  · obtain rfl : w = 0 := Int64.toInt_inj.mp zero
    exact ⟨_, rfl, .zero⟩
  by_cases below : w < 0
  · rw [if_pos below] at size ⊢
    obtain ⟨k, p, filled, same, stands⟩ := count_parts (-w).toUInt64 (by omega)
    have regular : Regular k p := ⟨filled, stands.short, by have := stands.least; omega, .inr stands.normal⟩
    have finite : p < 972 := by have := stands.most; omega
    rw [same, neg_of_parts filled regular finite, of_parts_unpack _ filled regular finite, Int.sign_eq_neg_one_of_neg (sign.mp below),
      ← size, Int.neg_one_mul]
    exact ⟨_, rfl, .below stands⟩
  · rw [if_neg below] at size ⊢
    obtain ⟨k, p, filled, same, stands⟩ := count_parts w.toUInt64 (by omega)
    have regular : Regular k p := ⟨filled, stands.short, by have := stands.least; omega, .inr stands.normal⟩
    have finite : p < 972 := by have := stands.most; omega
    rw [same, of_parts_unpack _ filled regular finite, Int.sign_eq_one_of_pos (by have := mt sign.mpr below; omega), ← size, Int.one_mul]
    exact ⟨_, rfl, .above stands⟩

end Decimal

namespace Script

open Decimal (nearest nearest_mono ranks_compare word_ranks)

theorem order_words (a b : Int64) : (Value.int a).order (.int b) = some (compare (nearest a.toInt) (nearest b.toInt)) := by
  obtain ⟨r, left, standsLeft⟩ := word_ranks a
  obtain ⟨t, right, standsRight⟩ := word_ranks b
  rw [@Value.order_numbers (.int a) (.int b) r t left right, ranks_compare standsLeft standsRight]

theorem loose_words (a b : Int64) : (Value.int a).looseEq (.int b) = decide (nearest a.toInt = nearest b.toInt) := by
  obtain ⟨r, left, standsLeft⟩ := word_ranks a
  obtain ⟨t, right, standsRight⟩ := word_ranks b
  change ((Word.toFloat a).toModel.unpack.compare (Word.toFloat b).toModel.unpack == some .eq) = _
  rw [Decimal.compare_rank, byWorth, left, right]
  simp only [ranks_compare standsLeft standsRight]
  by_cases same : nearest a.toInt = nearest b.toInt
  · simp [same]
  · simp [same]

theorem count_not_below (n : Nat) (fits : n < 2 ^ 63) : compareValues .lt (.int (Int64.ofInt n)) (.int (Int64.ofInt 0)) = .ok false := by
  have above : nearest 0 ≤ nearest n := nearest_mono (Int.natCast_nonneg n)
  have order : compare (nearest n) (nearest 0) ≠ .lt := by rwa [ne_eq, compare_lt_iff_lt, not_lt]
  simp only [compareValues, order_words, Int64.toInt_ofInt_of_le (show -2 ^ 63 ≤ (n : Int) by omega) (by omega)]
  exact congrArg Except.ok (beq_eq_false_iff_ne.mpr order)

end Script

end Flowstep
