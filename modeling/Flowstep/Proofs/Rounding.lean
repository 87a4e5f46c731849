import Flowstep.Proofs.Doubles
import Flowstep.Proofs.Scanning
import Mathlib.Algebra.Order.Field.Power
import Mathlib.Data.List.TakeWhile
import Mathlib.Data.Nat.Cast.Order.Field
import Mathlib.Data.Rat.Cast.Order
import Mathlib.Tactic.FieldSimp
import Mathlib.Tactic.Linarith
import Mathlib.Tactic.Positivity
import Mathlib.Tactic.Ring

/-!
The numbers that round to a double.
-/
namespace Flowstep.Decimal

-- A quotient at most a half away from an integer, and exactly a half only from an even one, is rounded to it.
theorem div_even_near {num den n : Nat} (positive : 0 < den) (low : 2 * (n * den) ≤ 2 * num + den)
    (high : 2 * num ≤ 2 * (n * den) + den)
    (tie : 2 * (n * den) = 2 * num + den ∨ 2 * num = 2 * (n * den) + den → n % 2 = 0) : divEven num den = n := by
  have split := Nat.div_add_mod num den
  have small := Nat.mod_lt num positive
  rw [Nat.mul_comm] at split
  unfold divEven
  dsimp only
  generalize num / den = q at *
  have near : q = n ∨ q + 1 = n := by
    by_contra far
    rcases Nat.lt_or_ge n q with above | below
    · have := Nat.mul_le_mul_right den (show n + 1 ≤ q from above)
      rw [Nat.add_mul] at this
      omega
    · have := Nat.mul_le_mul_right den (show q + 2 ≤ n by omega)
      rw [Nat.add_mul] at this
      omega
  rcases near with rfl | rfl
  · split
    · rfl
    · rw [if_neg (by omega), tie (.inr (by omega)), Nat.add_zero]
  · rw [Nat.add_mul] at *
    rw [if_neg (by omega)]
    split
    · rfl
    · omega

theorem shift_cast (n : Nat) (k : Int) (up : 0 ≤ k) : ((n <<< k.toNat : Nat) : ℚ) = n * 2 ^ k := by
  obtain ⟨j, rfl⟩ := Int.eq_ofNat_of_zero_le up
  rw [Nat.shiftLeft_eq, Nat.cast_mul, Nat.cast_pow]
  rfl

theorem floor_log_two {num den : Nat} (some : 0 < num) (positive : 0 < den) :
    (2 : ℚ) ^ floorLog2 num den ≤ num / den ∧ (num : ℚ) / den < 2 ^ (floorLog2 num den + 1) := by
  have numLow : ((2 : ℚ) ^ (num.log2 : Int)) ≤ num := by
    exact_mod_cast Nat.log2_self_le (by omega)
  have numHigh : (num : ℚ) < 2 ^ ((num.log2 : Int) + 1) := by
    exact_mod_cast Nat.lt_log2_self
  have denLow : ((2 : ℚ) ^ (den.log2 : Int)) ≤ den := by
    exact_mod_cast Nat.log2_self_le (by omega)
  have denHigh : (den : ℚ) < 2 ^ ((den.log2 : Int) + 1) := by
    exact_mod_cast Nat.lt_log2_self
  have den0 : (0 : ℚ) < den := by exact_mod_cast positive
  obtain ⟨k, same⟩ : ∃ k, k = (num.log2 : Int) - den.log2 := ⟨_, rfl⟩
  have below : (2 : ℚ) ^ (k - 1) ≤ num / den := by
    rw [le_div_iff₀ den0]
    calc (2 : ℚ) ^ (k - 1) * den ≤ 2 ^ (k - 1) * 2 ^ ((den.log2 : Int) + 1) :=
          mul_le_mul_of_nonneg_left denHigh.le (by positivity)
      _ = 2 ^ (num.log2 : Int) := by rw [← zpow_add₀ (by norm_num)]; congr 1; omega
      _ ≤ num := numLow
  have above : (num : ℚ) / den < 2 ^ (k + 1) := by
    rw [div_lt_iff₀ den0]
    calc (num : ℚ) < 2 ^ ((num.log2 : Int) + 1) := numHigh
      _ = 2 ^ (k + 1) * 2 ^ (den.log2 : Int) := by rw [← zpow_add₀ (by norm_num)]; congr 1; omega
      _ ≤ 2 ^ (k + 1) * den := mul_le_mul_of_nonneg_left denLow (by positivity)
  have fits : (if 0 ≤ k then den <<< k.toNat ≤ num else den ≤ num <<< (-k).toNat) ↔ (2 : ℚ) ^ k ≤ num / den := by
    rw [le_div_iff₀ den0]
    split
    · rename_i up
      rw [mul_comm, ← shift_cast den k up, Nat.cast_le]
    · rename_i down
      have scaled := shift_cast num (-k) (by omega)
      rw [← Nat.cast_le (α := ℚ), scaled, zpow_neg, ← div_eq_mul_inv, le_div_iff₀ (by positivity), mul_comm]
  unfold floorLog2
  simp only [← same]
  by_cases reached : (if 0 ≤ k then den <<< k.toNat ≤ num else den ≤ num <<< (-k).toNat)
  · rw [if_pos reached]
    exact ⟨fits.mp reached, above⟩
  · rw [if_neg reached]
    refine ⟨below, ?_⟩
    rw [sub_add_cancel]
    exact lt_of_not_ge fun low => reached (fits.mpr low)

def roundedTo (num den : Nat) (unit : Int) : Nat :=
  if 0 ≤ unit then divEven num (den <<< unit.toNat) else divEven (num <<< (-unit).toNat) den

theorem rounded_near {num den n : Nat} {unit : Int} (positive : 0 < den)
    (low : 2 * n * (2 : ℚ) ^ unit ≤ 2 * (num / den) + 2 ^ unit) (high : 2 * ((num : ℚ) / den) ≤ 2 * n * 2 ^ unit + 2 ^ unit)
    (tie : 2 * n * (2 : ℚ) ^ unit = 2 * (num / den) + 2 ^ unit ∨ 2 * ((num : ℚ) / den) = 2 * n * 2 ^ unit + 2 ^ unit →
      n % 2 = 0) : roundedTo num den unit = n := by
  -- Both fractions that are rounded stand for the quotient in the unit.
  have fraction (a b : Nat) (filled : 0 < b) (same : (a : ℚ) / b = num / den / 2 ^ unit) : divEven a b = n := by
    have quotient : (num : ℚ) / den = a / b * 2 ^ unit := by rw [same]; field_simp
    rw [quotient] at low high tie
    have left : ((2 * (n * b) : Nat) : ℚ) = 2 * n * 2 ^ unit * (b / 2 ^ unit) := by push_cast; field_simp
    have right : ((2 * a + b : Nat) : ℚ) = (2 * (a / b * 2 ^ unit) + 2 ^ unit) * (b / 2 ^ unit) := by push_cast; field_simp
    have left' : ((2 * a : Nat) : ℚ) = 2 * (a / b * 2 ^ unit) * (b / 2 ^ unit) := by push_cast; field_simp
    have right' : ((2 * (n * b) + b : Nat) : ℚ) = (2 * n * 2 ^ unit + 2 ^ unit) * (b / 2 ^ unit) := by push_cast; field_simp
    have factor : (0 : ℚ) < b / 2 ^ unit := by positivity
    refine div_even_near filled ?_ ?_ fun ends => tie ?_
    · rw [← Nat.cast_le (α := ℚ), left, right]
      exact mul_le_mul_of_nonneg_right low factor.le
    · rw [← Nat.cast_le (α := ℚ), left', right']
      exact mul_le_mul_of_nonneg_right high factor.le
    · refine ends.imp (fun same => ?_) fun same => ?_
      · exact mul_right_cancel₀ factor.ne' (by rw [← left, ← right, same])
      · exact mul_right_cancel₀ factor.ne' (by rw [← left', ← right', same])
  unfold roundedTo
  split
  · rename_i up
    refine fraction num _ (by rw [Nat.shiftLeft_eq]; positivity) ?_
    rw [shift_cast den unit up, div_div]
  · rename_i down
    refine fraction _ den positive ?_
    rw [shift_cast num (-unit) (by omega), zpow_neg]
    field_simp

structure Rounds (m : Nat) (q : Int) (r : ℚ) : Prop where
  low : (roundingOf m q).low * (2 : ℚ) ^ q ≤ 4 * r
  high : 4 * r ≤ (roundingOf m q).high * (2 : ℚ) ^ q
  odd : m % 2 = 1 → (roundingOf m q).low * (2 : ℚ) ^ q ≠ 4 * r ∧ 4 * r ≠ (roundingOf m q).high * (2 : ℚ) ^ q

variable {q : Int}

theorem bits_of_ratio_rounds {num den m : Nat} (positive : 0 < den) (regular : Regular m q)
    (finite : (q + 1074).toNat * leadingBit + m ≤ infiniteBits) (rounds : Rounds m q (num / den)) :
    bitsOfRatio num den = (q + 1074).toNat * leadingBit + m := by
  obtain ⟨filled, short, least, normal⟩ := regular
  obtain ⟨low, high, odd⟩ := rounds
  have power : (0 : ℚ) < 2 ^ q := by positivity
  have mantissa : (1 : ℚ) ≤ m := by exact_mod_cast filled
  have mantissa' : (m : ℚ) + 1 ≤ 9007199254740992 := by exact_mod_cast short
  have highEq : ((roundingOf m q).high : ℚ) = 4 * m + 2 := by simp [roundingOf]
  have lowLeast : (4 * m - 2 : ℚ) ≤ (roundingOf m q).low := by
    have : 4 * m - 2 ≤ (roundingOf m q).low := by
      simp only [roundingOf]
      split <;> omega
    have cast : ((4 * m - 2 : Nat) : ℚ) ≤ (roundingOf m q).low := by exact_mod_cast this
    rw [Nat.cast_sub (by omega)] at cast
    push_cast at cast
    exact cast
  rw [highEq] at high odd
  generalize quotient : (num : ℚ) / den = r at *
  have positiveRatio : 0 < r := by nlinarith
  have some : 0 < num := by
    rcases Nat.eq_zero_or_pos num with rfl | some
    · simp at quotient
      rw [← quotient] at positiveRatio
      exact absurd positiveRatio (lt_irrefl 0)
    · exact some
  obtain ⟨logLow, logHigh⟩ := floor_log_two some positive
  rw [quotient] at logLow logHigh
  unfold bitsOfRatio
  rw [if_neg (by omega)]
  change min ((max (floorLog2 num den - 52) (-1074) + 1074).toNat * leadingBit +
    roundedTo num den (max (floorLog2 num den - 52) (-1074))) infiniteBits = _
  generalize floorLog2 num den = k at *
  have top : k ≤ 52 + q := by
    have less : (2 : ℚ) ^ k < 2 ^ (53 + q) := by
      refine lt_of_le_of_lt logLow ?_
      rw [zpow_add₀ (by norm_num)]
      norm_num
      nlinarith
    have := (zpow_lt_zpow_iff_right₀ (by norm_num : (1 : ℚ) < 2)).mp less
    omega
  by_cases own : max (k - 52) (-1074) = q
  · -- The mantissa is rounded at its own last place.
    rw [own, rounded_near positive]
    · exact Nat.min_eq_left finite
    · rw [quotient]; nlinarith
    · rw [quotient]; nlinarith
    · intro ends
      rw [quotient] at ends
      by_contra other
      have odds := odd (by omega)
      rcases ends with ends | ends
      · have regularLow : ((roundingOf m q).low : ℚ) = 4 * m - 2 := by
          have : (roundingOf m q).low = 4 * m - 2 := by
            have : m ≠ leadingBit := by rw [leadingBit]; omega
            simp [roundingOf, this]
          rw [this, Nat.cast_sub (by omega)]
          push_cast
          ring
        rw [regularLow] at odds
        exact odds.1 (by linarith)
      · exact odds.2 (by linarith)
  · -- Just below a power of two the last place is half as wide.
    have small : r < 2 ^ (52 + q) :=
      lt_of_lt_of_le logHigh (zpow_le_zpow_right₀ (by norm_num) (by omega))
    rw [zpow_add₀ (by norm_num)] at small
    norm_num at small
    have least : m = leadingBit := by
      by_contra other
      have more : (4503599627370497 : ℚ) ≤ m := by
        have : 4503599627370497 ≤ m := by rw [leadingBit] at *; omega
        exact_mod_cast this
      nlinarith
    have lowEq : ((roundingOf m q).low : ℚ) = 18014398509481983 := by
      have : (roundingOf m q).low = 18014398509481983 := by
        simp only [roundingOf, least]
        rw [if_pos (by simp; omega)]
        rfl
      rw [this]
      rfl
    rw [lowEq] at low
    have half : k = 51 + q := by
      have more : (2 : ℚ) ^ (51 + q) < 2 ^ (k + 1) := by
        refine lt_of_le_of_lt ?_ logHigh
        rw [zpow_add₀ (by norm_num)]
        norm_num
        nlinarith
      have := (zpow_lt_zpow_iff_right₀ (by norm_num : (1 : ℚ) < 2)).mp more
      omega
    have unit : max (k - 52) (-1074) = q - 1 := by omega
    have halved : (2 : ℚ) ^ (q - 1) = 2 ^ q / 2 := by rw [zpow_sub_one₀ (by norm_num)]; rfl
    rw [unit, rounded_near positive]
    · have next : (q - 1 + 1074).toNat * leadingBit + 9007199254740992 = (q + 1074).toNat * leadingBit + m := by
        have one : (q + 1074).toNat = (q - 1 + 1074).toNat + 1 := by omega
        rw [one, least, leadingBit]
        omega
      rw [next]
      exact Nat.min_eq_left finite
    · rw [quotient, halved]; push_cast; nlinarith
    · rw [quotient, halved]; push_cast; nlinarith
    · intro _
      rfl

-- The two numbers of a grid stand for one step of it, in quarters of the last place.
theorem grid_step (q place : Int) : (0 : ℚ) < (Nat.pow 10 (-place).toNat <<< q.toNat : Nat) ∧
    (((4 * Nat.pow 10 place.toNat) <<< (-q).toNat : Nat) : ℚ) * 2 ^ q =
      4 * 10 ^ place * (Nat.pow 10 (-place).toNat <<< q.toNat : Nat) := by
  have ten (k : Nat) : ((Nat.pow 10 k : Nat) : ℚ) = 10 ^ (k : Int) := by
    rw [Nat.pow_eq, Nat.cast_pow]
    rfl
  have two (n : Nat) (k : Int) : ((n <<< k.toNat : Nat) : ℚ) = n * 2 ^ (k.toNat : Int) := by
    have shifted := shift_cast n k.toNat (by omega)
    exact shifted
  have ups : (10 : ℚ) ^ (place.toNat : Int) = 10 ^ place * 10 ^ ((-place).toNat : Int) := by
    rw [← zpow_add₀ (by norm_num)]
    congr 1
    omega
  have downs : (2 : ℚ) ^ (q.toNat : Int) = 2 ^ q * 2 ^ ((-q).toNat : Int) := by
    rw [← zpow_add₀ (by norm_num)]
    congr 1
    omega
  rw [two, two, Nat.cast_mul, ten, ten, downs, ups]
  refine ⟨by positivity, ?_⟩
  ring

theorem holds_rounds (m c : Nat) (q place : Int) :
    (roundingOf m q).holds ((4 * Nat.pow 10 place.toNat) <<< (-q).toNat) (Nat.pow 10 (-place).toNat <<< q.toNat) c = true ↔
      Rounds m q (c * 10 ^ place) := by
  obtain ⟨positive, step⟩ := grid_step q place
  generalize ((4 * Nat.pow 10 place.toNat) <<< (-q).toNat) = num at *
  generalize (Nat.pow 10 (-place).toNat <<< q.toNat) = den at *
  have power : (0 : ℚ) < 2 ^ q := by positivity
  -- Comparing with an end of the interval over the grid is comparing the numbers.
  have scaled (bound : Nat) : ((bound * den : Nat) : ℚ) * 2 ^ q = bound * 2 ^ q * den ∧
      ((c * num : Nat) : ℚ) * 2 ^ q = 4 * (c * 10 ^ place) * den := by
    push_cast
    refine ⟨by ring, ?_⟩
    rw [mul_assoc, step]
    ring
  have least (bound : Nat) : bound * den ≤ c * num ↔ bound * (2 : ℚ) ^ q ≤ 4 * (c * 10 ^ place) := by
    rw [← Nat.cast_le (α := ℚ), ← mul_le_mul_iff_left₀ power, (scaled bound).1, (scaled bound).2,
      mul_le_mul_iff_left₀ positive]
  have most (bound : Nat) : c * num ≤ bound * den ↔ 4 * (c * 10 ^ place) ≤ bound * (2 : ℚ) ^ q := by
    rw [← Nat.cast_le (α := ℚ), ← mul_le_mul_iff_left₀ power, (scaled bound).1, (scaled bound).2,
      mul_le_mul_iff_left₀ positive]
  have closed : (roundingOf m q).closed = decide (m % 2 = 0) := rfl
  unfold Rounding.holds
  rw [closed]
  by_cases even : m % 2 = 0
  · simp only [even, if_true, Bool.and_eq_true, decide_eq_true_eq, least, most]
    exact ⟨fun ⟨low, high⟩ => ⟨low, high, by omega⟩, fun rounds => ⟨rounds.low, rounds.high⟩⟩
  · simp only [even, if_false, Bool.and_eq_true, decide_eq_true_eq, ← not_le, least, most]
    constructor
    · rintro ⟨low, high⟩
      rw [not_le] at low high
      exact ⟨low.le, high.le, fun _ => ⟨low.ne, high.ne⟩⟩
    · rintro ⟨low, high, odd⟩
      obtain ⟨left, right⟩ := odd (by omega)
      rw [not_le, not_le]
      exact ⟨lt_of_le_of_ne low left, lt_of_le_of_ne high right⟩

variable {m n : Nat} {place : Int}

theorem on_grid_rounds {tie : Tie} (hit : onGrid tie m q place = some n) :
    Rounds m q (n * 10 ^ place) := by
  rw [← holds_rounds]
  unfold onGrid at hit
  dsimp only at hit
  split at hit
  · rename_i first second
    split at hit
    · cases hit
      exact first
    · split at hit
      · cases hit
        exact second
      · split at hit
        · cases hit
          exact second
        · cases hit
          split
          · exact first
          · exact second
  · rename_i first second
    cases hit
    exact first
  · rename_i first second
    cases hit
    exact second
  · cases hit

-- Of the two neighbours on a grid of seventeen digits, the nearer one rounds to the number.
theorem neighbour_rounds {below : Nat} (regular : Regular m q) (fine : (10 : ℚ) ^ place * 10 ^ 16 ≤ m * 2 ^ q)
    (under : (below : ℚ) * 10 ^ place ≤ m * 2 ^ q) (exceeds : m * (2 : ℚ) ^ q < (below + 1 : Nat) * 10 ^ place) :
    Rounds m q (below * 10 ^ place) ∨ Rounds m q ((below + 1 : Nat) * 10 ^ place) := by
  obtain ⟨filled, short, least, normal⟩ := regular
  have power : (0 : ℚ) < 2 ^ q := by positivity
  have mantissa' : (m : ℚ) + 1 ≤ 9007199254740992 := by exact_mod_cast short
  have highEq : ((roundingOf m q).high : ℚ) = 4 * m + 2 := by simp [roundingOf]
  have lower : (2 : ℚ) * 10 ^ place < (4 * m - (roundingOf m q).low) * 2 ^ q := by
    by_cases narrow : m = leadingBit ∧ q ≠ -1074
    · have lowEq : (roundingOf m q).low = 4 * m - 1 := by simp [roundingOf, narrow]
      rw [lowEq, Nat.cast_sub (by omega)]
      rw [narrow.1, leadingBit] at fine ⊢
      push_cast at fine ⊢
      linarith
    · have lowEq : (roundingOf m q).low = 4 * m - 2 := by
        simp only [roundingOf, Bool.and_eq_true, decide_eq_true_eq, if_neg narrow]
      rw [lowEq, Nat.cast_sub (by omega)]
      push_cast
      nlinarith
  push_cast at exceeds ⊢
  by_cases nearer : 2 * (m * (2 : ℚ) ^ q) ≤ (2 * below + 1) * 10 ^ place
  · left
    refine ⟨by nlinarith, by rw [highEq]; nlinarith, fun _ => ⟨?_, ?_⟩⟩
    · apply ne_of_lt; nlinarith
    · rw [highEq]; apply ne_of_lt; nlinarith
  · right
    refine ⟨by nlinarith, by rw [highEq]; nlinarith, fun _ => ⟨?_, ?_⟩⟩
    · apply ne_of_lt; nlinarith
    · rw [highEq]; apply ne_of_lt; nlinarith

theorem on_grid_hits (tie : Tie) (regular : Regular m q) (fine : (10 : ℚ) ^ place * 10 ^ 16 ≤ m * 2 ^ q) :
    ∃ n, onGrid tie m q place = some n := by
  obtain ⟨positive, step⟩ := grid_step q place
  have power : (0 : ℚ) < 2 ^ q := by positivity
  have first := holds_rounds m (4 * m * (Nat.pow 10 (-place).toNat <<< q.toNat) /
    ((4 * Nat.pow 10 place.toNat) <<< (-q).toNat)) q place
  have second := holds_rounds m (4 * m * (Nat.pow 10 (-place).toNat <<< q.toNat) /
    ((4 * Nat.pow 10 place.toNat) <<< (-q).toNat) + 1) q place
  have near : Rounds m q ((4 * m * (Nat.pow 10 (-place).toNat <<< q.toNat) /
      ((4 * Nat.pow 10 place.toNat) <<< (-q).toNat) : Nat) * 10 ^ place) ∨
      Rounds m q ((4 * m * (Nat.pow 10 (-place).toNat <<< q.toNat) /
        ((4 * Nat.pow 10 place.toNat) <<< (-q).toNat) + 1 : Nat) * 10 ^ place) := by
    generalize ((4 * Nat.pow 10 place.toNat) <<< (-q).toNat) = num at *
    generalize (Nat.pow 10 (-place).toNat <<< q.toNat) = den at *
    have num0 : (0 : ℚ) < num := by
      have product : (0 : ℚ) < num * 2 ^ q := by rw [step]; positivity
      exact pos_of_mul_pos_left product power.le
    have filled : 0 < num := by exact_mod_cast num0
    have under : ((4 * m * den / num : Nat) : ℚ) * num ≤ 4 * m * den := by
      exact_mod_cast Nat.div_mul_le_self (4 * m * den) num
    have exceeds : (4 * m * den : ℚ) < ((4 * m * den / num + 1 : Nat) : ℚ) * num := by
      rw [mul_comm _ (num : ℚ)]
      exact_mod_cast Nat.lt_mul_div_succ (4 * m * den) filled
    have scale (c : Nat) : (c : ℚ) * num * 2 ^ q = c * 10 ^ place * (4 * den) := by
      rw [mul_assoc, step]
      ring
    have value : (4 * m * den : ℚ) * 2 ^ q = m * 2 ^ q * (4 * den) := by ring
    have factor : (0 : ℚ) < 4 * den := by positivity
    refine neighbour_rounds regular fine ?_ ?_
    · rw [← mul_le_mul_iff_left₀ factor, ← scale, ← value]
      exact mul_le_mul_of_nonneg_right under power.le
    · rw [← mul_lt_mul_iff_left₀ factor, ← scale, ← value]
      exact mul_lt_mul_of_pos_right exceeds power
  rw [← first, ← second] at near
  unfold onGrid
  dsimp only
  split
  · split
    · exact ⟨_, rfl⟩
    · split
      · exact ⟨_, rfl⟩
      · split <;> exact ⟨_, rfl⟩
  · exact ⟨_, rfl⟩
  · exact ⟨_, rfl⟩
  · rename_i missed other
    rw [missed, other] at near
    simp at near

theorem digit_count_least (filled : 0 < n) : 1 ≤ digitCount n ∧ 10 ^ (digitCount n - 1) ≤ n := by
  have some : 1 ≤ digitCount n := List.length_pos_iff.mpr Nat.toDigits_ne_nil
  refine ⟨some, ?_⟩
  by_contra less
  have shorter : digitCount n ≤ digitCount n - 1 := by
    rcases Nat.eq_zero_or_pos (digitCount n - 1) with zero | positive
    · rw [zero] at less
      omega
    · exact (Nat.length_toDigits_le_iff (by decide) positive).mpr (by omega)
  omega

theorem digit_count_most (n : Nat) : n < 10 ^ digitCount n :=
  (Nat.length_toDigits_le_iff (by decide) (List.length_pos_iff.mpr Nat.toDigits_ne_nil)).mp (Nat.le_refl _)

theorem floor_log_ten (q : Int) (filled : 0 < m) :
    (10 : ℚ) ^ floorLog10 m q ≤ m * 2 ^ q ∧ m * (2 : ℚ) ^ q < 10 ^ (floorLog10 m q + 1) := by
  have least (n : Nat) (some : 0 < n) : (10 : ℚ) ^ ((digitCount n : Int) - 1) ≤ n := by
    obtain ⟨one, least⟩ := digit_count_least some
    exact_mod_cast least
  have most (n : Nat) : (n : ℚ) + 1 ≤ 10 ^ ((digitCount n : Int) - 1 + 1) := by
    rw [sub_add_cancel]
    exact_mod_cast digit_count_most n
  unfold floorLog10
  dsimp only
  split
  · rename_i up
    rw [← shift_cast m q up]
    exact ⟨least _ (by rw [Nat.shiftLeft_eq]; positivity), lt_of_lt_of_le (lt_add_one _) (most _)⟩
  · rename_i down
    have power : ((1 <<< (-q).toNat : Nat) : ℚ) = (2 ^ q)⁻¹ := by
      rw [shift_cast 1 (-q) (by omega)]
      simp
    have positive : 0 < 1 <<< (-q).toNat := by rw [Nat.shiftLeft_eq]; positivity
    generalize 1 <<< (-q).toNat = den at *
    have whole : (2 : ℚ) ^ q = (den : ℚ)⁻¹ := by rw [power, inv_inv]
    have den0 : (0 : ℚ) < den := by exact_mod_cast positive
    have m0 : (0 : ℚ) < m := by exact_mod_cast filled
    rw [whole, ← div_eq_mul_inv]
    split
    · rename_i large
      refine ⟨(least (m / den) (Nat.div_pos large positive)).trans Nat.cast_div_le, lt_of_lt_of_le ?_ (most (m / den))⟩
      rw [div_lt_iff₀ den0, mul_comm]
      exact_mod_cast Nat.lt_mul_div_succ m positive
    · rename_i small
      generalize ceiling : (den + m - 1) / m = turn
      have under := Nat.div_mul_le_self (den + m - 1) m
      have exceeds := Nat.lt_mul_div_succ (den + m - 1) filled
      rw [ceiling] at under exceeds
      rw [Nat.mul_succ, Nat.mul_comm] at exceeds
      split
      · rename_i one
        have : turn * m ≤ 1 * m := Nat.mul_le_mul_right m one
        omega
      · rename_i more
        have above : turn ≤ 10 ^ digitCount (turn - 1) := by
          have := digit_count_most (turn - 1)
          omega
        have below := least (turn - 1) (by omega)
        constructor
        · rw [le_div_iff₀ den0, zpow_neg, inv_mul_le_iff₀ (by positivity)]
          calc (den : ℚ) ≤ turn * m := by exact_mod_cast (by omega : den ≤ turn * m)
            _ ≤ 10 ^ digitCount (turn - 1) * m := mul_le_mul_of_nonneg_right (by exact_mod_cast above) m0.le
        · have reaches : (turn - 1) * m < den := by
            rw [Nat.sub_mul]
            omega
          rw [div_lt_iff₀ den0, show -(digitCount (turn - 1) : Int) + 1 = -((digitCount (turn - 1) : Int) - 1) by ring, zpow_neg,
            lt_inv_mul_iff₀ (by positivity)]
          calc (10 : ℚ) ^ ((digitCount (turn - 1) : Int) - 1) * m ≤ (turn - 1 : Nat) * m :=
                mul_le_mul_of_nonneg_right below m0.le
            _ < den := by exact_mod_cast reaches

theorem first_grid_hit {tie : Tie} {m n : Nat} {q e place : Int} (fuel count : Nat)
    (found : firstGrid tie m q e fuel count = some (n, place)) :
    e - (count + fuel) + 1 < place ∧ place ≤ e - count + 1 ∧ onGrid tie m q place = some n := by
  induction fuel generalizing count with
  | zero => cases found
  | succ fuel ih =>
    rw [firstGrid] at found
    split at found
    · rename_i hit
      cases found
      exact ⟨by omega, by omega, hit⟩
    · obtain ⟨fine, coarse, hit⟩ := ih (count + 1) found
      exact ⟨by omega, by omega, hit⟩

theorem first_grid_finds {tie : Tie} {e : Int} (fuel count later : Nat) (inside : later < fuel)
    (hit : onGrid tie m q (e - (count + later : Nat) + 1) = some n) :
    ∃ found, firstGrid tie m q e fuel count = some found := by
  induction fuel generalizing count later with
  | zero => omega
  | succ fuel ih =>
    rw [firstGrid]
    cases here : onGrid tie m q (e - count + 1) with
    | some first => exact ⟨_, rfl⟩
    | none =>
      cases later with
      | zero =>
        rw [Nat.add_zero, here] at hit
        cases hit
      | succ later =>
        rw [← Nat.add_assoc, Nat.add_right_comm] at hit
        exact ih (count + 1) later (by omega) hit

def Digits.value (d : Digits) : ℚ := natOfDigits d.digits * 10 ^ (d.exponent - (d.digits.length - 1))

theorem nat_of_digits_append (front back : List Char) :
    natOfDigits (front ++ back) = natOfDigits front * 10 ^ back.length + natOfDigits back := by
  have step (back : List Char) (start : Nat) : back.foldl (fun n c => 10 * n + (c.toNat - 48)) start =
      start * 10 ^ back.length + natOfDigits back := by
    induction back generalizing start with
    | nil => simp [natOfDigits]
    | cons c rest ih =>
      rw [natOfDigits, List.foldl_cons, List.foldl_cons, ih, ih (10 * 0 + (c.toNat - 48)), List.length_cons]
      ring
  rw [natOfDigits, List.foldl_append, step]
  rfl

theorem nat_of_digits_zeros (n : Nat) : natOfDigits (List.replicate n '0') = 0 := by
  induction n with
  | zero => rfl
  | succ n ih =>
    rw [List.replicate_succ, ← List.singleton_append, nat_of_digits_append, ih]
    simp [natOfDigits]

theorem drop_zeros_kept {cs : List Char} (some : 0 < natOfDigits cs) :
    ∃ n, cs = dropZeros cs ++ List.replicate n '0' := by
  have split := List.takeWhile_append_dropWhile (p := (· == '0')) (l := cs.reverse)
  have zeros : cs.reverse.takeWhile (· == '0') = List.replicate (cs.reverse.takeWhile (· == '0')).length '0' := by
    rw [List.eq_replicate_iff]
    exact ⟨rfl, fun c member => by simpa using List.mem_takeWhile_imp member⟩
  have whole : cs = (cs.reverse.dropWhile (· == '0')).reverse ++
      List.replicate (cs.reverse.takeWhile (· == '0')).length '0' := by
    rw [← List.reverse_replicate, ← zeros, ← List.reverse_append, split, List.reverse_reverse]
  have kept : dropZeros cs = (cs.reverse.dropWhile (· == '0')).reverse := by
    unfold dropZeros
    split
    · rename_i empty
      rw [empty, List.reverse_nil, List.nil_append] at whole
      rw [whole, nat_of_digits_zeros] at some
      exact absurd some (Nat.lt_irrefl 0)
    · rfl
  exact ⟨_, by rw [kept]; exact whole⟩

theorem shortest_rounds (tie : Tie) {x : Float} (regular : Regular (parts x).mantissa (parts x).exponent) :
    Rounds (parts x).mantissa (parts x).exponent (shortest tie x).value := by
  unfold shortest
  dsimp only
  generalize (parts x).mantissa = m at *
  generalize (parts x).exponent = q at *
  rw [if_neg (by have := regular.filled; omega)]
  have fine : (10 : ℚ) ^ (floorLog10 m q - (1 + 16 : Nat) + 1) * 10 ^ 16 ≤ m * 2 ^ q := by
    refine le_trans (le_of_eq ?_) (floor_log_ten q regular.filled).1
    rw [← zpow_natCast, ← zpow_add₀ (by norm_num)]
    congr 1
    omega
  obtain ⟨n, hit⟩ := on_grid_hits tie regular fine
  obtain ⟨⟨n, place⟩, found⟩ := first_grid_finds 17 1 16 (by decide) hit
  rw [found]
  have rounds := on_grid_rounds (first_grid_hit 17 1 found).2.2
  have some : 0 < n := by
    rcases Nat.eq_zero_or_pos n with rfl | some
    · have low := rounds.low
      have least : 0 < (roundingOf m q).low := by
        have := regular.filled
        simp only [roundingOf]
        split <;> omega
      have least' : (0 : ℚ) < (roundingOf m q).low := by exact_mod_cast least
      have power : (0 : ℚ) < 2 ^ q := by positivity
      simp only [Nat.cast_zero] at low
      nlinarith
    · exact some
  have value : (Digits.mk (dropZeros (Nat.toDigits 10 n)) (place + (Nat.toDigits 10 n).length - 1)).value = n * 10 ^ place := by
    have digits := Script.nat_digits n
    obtain ⟨zeros, split⟩ := drop_zeros_kept (by rw [digits]; exact some)
    have length := congrArg List.length split
    rw [List.length_append, List.length_replicate] at length
    rw [split, nat_of_digits_append, nat_of_digits_zeros, List.length_replicate] at digits
    unfold Digits.value
    have number : (n : ℚ) = natOfDigits (dropZeros (Nat.toDigits 10 n)) * 10 ^ (zeros : Int) := by
      exact_mod_cast digits.symm
    rw [length, number, mul_assoc, ← zpow_add₀ (by norm_num)]
    dsimp only
    congr 2
    omega
  rw [value]
  exact rounds

end Flowstep.Decimal
