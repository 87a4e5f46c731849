import Mathlib.Data.Nat.Log
import Flowstep.Json.Parser
import Flowstep.Proofs.Doubles

/-!
How far doubles reach that come from rounding.
-/
namespace Flowstep.Decimal

open Float.Model
open Float.Model.UnpackedFloat

def Reaches (n : Int) : UnpackedFloat → Prop
  | .zero _ => True
  | .finite _ _ q _ => q ≤ n
  | _ => False

variable {n : Int} {u : UnpackedFloat}

theorem reaches_finite (reach : Reaches n u) : u.isFinite = true := by
  cases u with
  | zero sign => rfl
  | finite sign m q filled => rfl
  | infinity sign => exact reach.elim
  | notANumber => exact reach.elim

theorem shifted_mantissa (e : ExtendedMantissa) (n : Nat) : (e >>> n).mantissa = e.mantissa / 2 ^ n := by
  change (Nat.repeat ExtendedMantissa.shiftRightOne n e).mantissa = _
  induction n with
  | zero => simp [Nat.repeat]
  | succ n ih =>
    rw [Nat.repeat, ExtendedMantissa.shiftRightOne, ih, Nat.div_div_eq_div_mul, ← Nat.pow_succ]

theorem rounded_mantissa {e : ExtendedMantissa} : e.roundedMantissa ≤ e.mantissa + 1 := by
  unfold ExtendedMantissa.roundedMantissa Accuracy.roundToNearestEven
  split <;> omega

theorem extended_mantissa (m : Nat) (accuracy : Accuracy) :
    (ExtendedMantissa.ofMantissaAndAccuracy m accuracy).mantissa = m := by
  unfold ExtendedMantissa.ofMantissaAndAccuracy
  split <;> rfl

variable {m : Nat}

theorem log_next : (m + 1).log2 ≤ m.log2 + 1 := by
  have below : m + 1 < 2 ^ (m.log2 + 2) := by
    have := @Nat.lt_log2_self m
    have : 2 ^ (m.log2 + 2) = 2 ^ (m.log2 + 1) * 2 := Nat.pow_succ ..
    omega
  have := (Nat.log2_lt (by omega)).mpr below
  omega

theorem log_mono {n : Nat} (le : m ≤ n) : m.log2 ≤ n.log2 := by
  rw [Nat.log2_eq_log_two, Nat.log2_eq_log_two]
  exact Nat.log_mono_right le

theorem target_places (total : Int) : Format.binary64.targetExponent total = max (total - 53) (-1074) := rfl

-- Shifting never takes the last place beyond the place that the leading one asks for.
theorem shift_reach (m : Nat) {q : Int} (accuracy : Accuracy) (least : -1074 ≤ n) (low : q ≤ n)
    (total : totalExponent m q ≤ n + 53) :
    (shiftToTargetExponent .binary64 m q accuracy).2 ≤ n ∧
      (shiftToTargetExponent .binary64 m q accuracy).1.mantissa.log2 +
        (shiftToTargetExponent .binary64 m q accuracy).2 ≤ max (totalExponent m q - 1) n := by
  unfold shiftToTargetExponent shiftToExponent
  dsimp only
  rw [target_places, shifted_mantissa, extended_mantissa, Nat.log2_eq_log_two, Nat.log_div_base_pow, ← Nat.log2_eq_log_two]
  unfold totalExponent at *
  omega

variable {sign : Sign} {accuracy : Accuracy}

theorem round_reach {q n : Int} (least : -1074 ≤ n) (low : q ≤ n)
    (total : totalExponent m q ≤ n + 52) : Reaches n (roundWithAccuracy .binary64 sign m q accuracy) := by
  obtain ⟨first, places⟩ := shift_reach m accuracy least low (by omega)
  unfold roundWithAccuracy
  dsimp only
  generalize shiftToTargetExponent .binary64 m q accuracy = shifted at *
  have rounded : (ExtendedMantissa.roundedMantissa shifted.1).log2 ≤ shifted.1.mantissa.log2 + 1 :=
    (log_mono (rounded_mantissa)).trans (log_next)
  obtain ⟨second, _⟩ := shift_reach (ExtendedMantissa.roundedMantissa shifted.1) .exact least first
    (by unfold totalExponent at *; omega)
  split
  · trivial
  · exact second

theorem unpack_components_reach (sign : Sign) {exponent : BitVec 11} (mantissa : BitVec 52) (least : -1074 ≤ n)
    (low : (exponent.toNat : Int) ≤ n + 1075) (number : exponent ≠ -1#11) :
    Reaches n (UnpackedFloat.unpack .binary64 (packComponents .binary64 sign exponent mantissa)) := by
  unfold UnpackedFloat.unpack
  simp only [unpackExponent_packComponents]
  rw [if_neg number]
  split
  · rename_i zero
    split
    · trivial
    · change (exponent.toNat : Int) - 1075 + 1 ≤ n
      rw [show exponent = 0#11 from zero]
      change (0 : Int) - 1075 + 1 ≤ n
      omega
  · change (exponent.toNat : Int) - 1075 ≤ n
    omega

theorem pack_reach (n : Int) (u : UnpackedFloat) (least : -1074 ≤ n) (most : n < 972) (reach : Reaches n u) :
    Reaches n (UnpackedFloat.unpack .binary64 (UnpackedFloat.pack .binary64 u)) := by
  cases u with
  | infinity sign => exact reach.elim
  | notANumber => exact reach.elim
  | zero sign => exact unpack_components_reach sign 0 least (by change (0 : Int) ≤ _; omega) (by decide)
  | finite sign m q filled =>
    change q ≤ n at reach
    unfold UnpackedFloat.pack
    dsimp only
    rw [biased_exponent]
    split
    · rename_i large
      omega
    · have number : (BitVec.ofNat 11 (q + 1075).toNat).toNat = (q + 1075).toNat := by
        exact Nat.mod_eq_of_lt (by omega)
      split
      · refine unpack_components_reach sign _ least (by rw [number]; omega) fun full => ?_
        have ones : (-1#11).toNat = 2047 := by decide
        rw [full] at number
        omega
      · exact unpack_components_reach sign _ least (by change (0 : Int) ≤ _; omega) (by decide)

theorem pack_number (reach : Reaches n u)
    (bounded : (UnpackedFloat.unpack .binary64 (UnpackedFloat.pack .binary64 u)).isInf = false) :
    (UnpackedFloat.unpack .binary64 (UnpackedFloat.pack .binary64 u)).isFinite = true := by
  cases u with
  | infinity sign => exact reach.elim
  | notANumber => exact reach.elim
  | zero sign => exact reaches_finite (pack_reach 0 (.zero sign) (by decide) (by decide) trivial)
  | finite sign m q filled =>
    by_cases small : q < 972
    · have low : Reaches (max q (-1074)) (.finite sign m q filled) := le_max_left q (-1074)
      exact reaches_finite (pack_reach _ _ (le_max_right _ _) (by omega) low)
    · unfold UnpackedFloat.pack at bounded
      dsimp only at bounded
      rw [biased_exponent, if_pos (by omega)] at bounded
      cases sign <;> exact absurd bounded (by decide)

theorem log_shift (m s : Nat) (some : m ≠ 0) : (m * 2 ^ s).log2 = m.log2 + s := by
  induction s with
  | zero => simp
  | succ s ih =>
    have filled : m * 2 ^ s ≠ 0 := Nat.mul_ne_zero some (Nat.pow_pos (by decide)).ne'
    rw [Nat.pow_succ, ← Nat.mul_assoc, Nat.log2_eq_log_two, Nat.log_mul_base (by decide) filled, ← Nat.log2_eq_log_two, ih,
      Nat.add_assoc]

theorem word_reach {n : UInt64} : Reaches 12 n.toFloat.toModel.unpack := by
  refine pack_reach 12 _ (by decide) (by decide) ?_
  unfold UnpackedFloat.ofUInt64 UnpackedFloat.ofNat UnpackedFloat.ofInt UnpackedFloat.normalize
  split
  · rename_i below
    rw [Int.compare_eq_lt] at below
    omega
  · trivial
  · rename_i above
    rw [Int.compare_eq_gt] at above
    have some : n.toNat ≠ 0 := by omega
    have small : n.toNat.log2 < 64 := (Nat.log2_lt some).mpr n.toNat_lt
    rw [Int.toNat_natCast]
    refine round_reach (by decide) (by omega) ?_
    rw [totalExponent, Nat.shiftLeft_eq, log_shift _ _ some]
    omega

theorem round_number {q : Int} : ∃ n, Reaches n (roundWithAccuracy .binary64 sign m q accuracy) := by
  unfold roundWithAccuracy
  dsimp only
  split
  · exact ⟨0, trivial⟩
  · exact ⟨_, Int.le_refl _⟩

theorem product_number {x y : Float} {m n : Int} (left : Reaches m x.toModel.unpack) (right : Reaches n y.toModel.unpack)
    (bounded : (x * y).isInf = false) : (x * y).isFinite := by
  obtain ⟨k, reach⟩ : ∃ k, Reaches k (UnpackedFloat.mul .binary64 x.toModel.unpack y.toModel.unpack) := by
    generalize x.toModel.unpack = u at left
    generalize y.toModel.unpack = v at right
    cases u with
    | infinity sign => exact left.elim
    | notANumber => exact left.elim
    | zero sign =>
      cases v with
      | infinity sign => exact right.elim
      | notANumber => exact right.elim
      | zero other => exact ⟨0, trivial⟩
      | finite other m q filled => exact ⟨0, trivial⟩
    | finite sign m q filled =>
      cases v with
      | infinity sign => exact right.elim
      | notANumber => exact right.elim
      | zero other => exact ⟨0, trivial⟩
      | finite other n k some => exact round_number
  exact pack_number reach bounded

theorem quotient_reach {x y : Float} {n : Int} (least : -1074 ≤ n) (most : n < 971) (reach : Reaches n x.toModel.unpack)
    {sign : Sign} {m : Nat} {q : Int} (filled : 0 < m) (same : y.toModel.unpack = .finite sign m q filled)
    (above : 1 ≤ totalExponent m q) : Reaches (n + 1) (x / y).toModel.unpack := by
  refine pack_reach (n + 1) (UnpackedFloat.div .binary64 x.toModel.unpack y.toModel.unpack) (by omega) (by omega) ?_
  rw [same]
  cases unpack : x.toModel.unpack with
  | infinity sign => exact (unpack ▸ reach).elim
  | notANumber => exact (unpack ▸ reach).elim
  | zero sign => trivial
  | finite other k p some =>
    obtain ⟨regular, _⟩ := unpack_bits some unpack
    rw [unpack] at reach
    change p ≤ n at reach
    have short : k.log2 < 53 := (Nat.log2_lt (by omega)).mpr regular.short
    unfold UnpackedFloat.div divCore
    dsimp only
    obtain ⟨t, target⟩ : ∃ t, t = min (p - q) (Format.binary64.targetExponent (totalExponent k p - totalExponent m q)) :=
      ⟨_, rfl⟩
    rw [← target]
    rw [target_places] at target
    have low := Nat.log2_self_le filled.ne'
    unfold totalExponent at *
    refine round_reach (by omega) (by omega) ?_
    obtain ⟨s, shift⟩ : ∃ s, s = (p - q - t).toNat := ⟨_, rfl⟩
    rw [← shift]
    have divided : (k <<< s / m).log2 ≤ k.log2 + s - m.log2 := by
      refine (log_mono (Nat.div_le_div_left low (Nat.pow_pos (by decide)))).trans_eq ?_
      rw [Nat.log2_eq_log_two, Nat.log_div_base_pow, ← Nat.log2_eq_log_two, Nat.shiftLeft_eq, log_shift k s some.ne']
    unfold totalExponent
    omega

theorem div_even_bounds (num den : Nat) : num / den ≤ divEven num den ∧ divEven num den ≤ num / den + 1 := by
  unfold divEven
  dsimp only
  split
  · omega
  · split <;> omega

theorem floor_log_whole {n : Nat} (some : 0 < n) : floorLog2 n 1 = n.log2 := by
  have low := Nat.log2_self_le (show n ≠ 0 by omega)
  unfold floorLog2
  simp only [show Nat.log2 1 = 0 from rfl, Int.natCast_zero, Int.sub_zero, Nat.shiftLeft_eq, Nat.one_mul]
  rw [if_pos]
  exact low

theorem bits_of_whole {n : Nat} (some : 0 < n) (low : n < (2 ^ 53 - 1) * 2 ^ 971) :
    1023 * leadingBit ≤ bitsOfRatio n 1 ∧ bitsOfRatio n 1 < infiniteBits := by
  have least := Nat.log2_self_le (show n ≠ 0 by omega)
  have most := @Nat.lt_log2_self n
  have small : n.log2 < 1024 := (Nat.log2_lt (by omega)).mpr (by omega)
  obtain ⟨mantissa, same, above, below, last⟩ : ∃ mantissa, (if 0 ≤ (n.log2 : Int) - 52 then
      divEven n (1 <<< ((n.log2 : Int) - 52).toNat) else divEven (n <<< (-((n.log2 : Int) - 52)).toNat) 1) = mantissa ∧
      2 ^ 52 ≤ mantissa ∧ mantissa ≤ 2 ^ 53 ∧ (n.log2 = 1023 → mantissa < 2 ^ 53) := by
    refine ⟨_, rfl, ?_⟩
    split
    · rename_i up
      obtain ⟨k, split⟩ : ∃ k, n.log2 = k + 52 := ⟨n.log2 - 52, by omega⟩
      obtain ⟨under, exceeds⟩ := div_even_bounds n (2 ^ k)
      have unit : 0 < 2 ^ k := Nat.pow_pos (by decide)
      rw [split, Nat.pow_add, Nat.mul_comm] at least
      rw [split, Nat.add_assoc, Nat.pow_add, Nat.mul_comm] at most
      have first : 2 ^ 52 ≤ n / 2 ^ k := (Nat.le_div_iff_mul_le unit).mpr least
      have second : n / 2 ^ k < 2 ^ 53 := (Nat.div_lt_iff_lt_mul unit).mpr most
      have places : ((n.log2 : Int) - 52).toNat = k := by omega
      rw [places, Nat.shiftLeft_eq, Nat.one_mul]
      refine ⟨by omega, by omega, fun full => ?_⟩
      have top : n / 2 ^ k < 2 ^ 53 - 1 := by
        rw [show k = 971 by omega] at unit ⊢
        exact (Nat.div_lt_iff_lt_mul unit).mpr low
      omega
    · obtain ⟨k, split⟩ : ∃ k, n.log2 + k = 52 := ⟨52 - n.log2, by omega⟩
      have places : (-((n.log2 : Int) - 52)).toNat = k := by omega
      obtain ⟨under, exceeds⟩ := div_even_bounds (n * 2 ^ k) 1
      have first : 2 ^ 52 ≤ n * 2 ^ k := by
        rw [← split, Nat.pow_add]
        exact Nat.mul_le_mul_right _ least
      have second : n * 2 ^ k < 2 ^ 53 := by
        rw [show 53 = n.log2 + 1 + k by omega, Nat.pow_add]
        exact Nat.mul_lt_mul_of_pos_right most (Nat.pow_pos (by decide))
      rw [places, Nat.shiftLeft_eq]
      omega
  unfold bitsOfRatio
  dsimp only
  rw [if_neg (by omega), floor_log_whole some, max_eq_left (by omega)]
  rw [infiniteBits, leadingBit] at *
  omega

theorem power_of_ten (k : Nat) (low : k ≤ 308) : ∃ m q, ∃ filled : 0 < m,
    (ofDecimal false 1 k).toModel.unpack = .finite .positive m q filled ∧ 1 ≤ totalExponent m q := by
  have top : 10 ^ 308 < (2 ^ 53 - 1) * 2 ^ 971 := by decide +kernel
  have within (most : Nat) (below : k ≤ most) : 10 ^ k ≤ 10 ^ most := Nat.pow_le_pow_right (by decide) below
  obtain ⟨least, most⟩ := bits_of_whole (Nat.pow_pos (by decide)) ((within 308 low).trans_lt top)
  have same : ofDecimal false 1 k = Float.ofBits (UInt64.ofNat (bitsOfRatio (10 ^ k) 1)) := by
    have one : (Nat.toDigits 10 1).length = 1 := rfl
    unfold ofDecimal
    dsimp only
    rw [if_neg (by decide), if_neg (by decide), if_neg (by omega), if_neg (by omega), if_pos (by omega),
      Nat.one_mul]
    rfl
  generalize bitsOfRatio (10 ^ k) 1 = bits at *
  rw [infiniteBits, leadingBit] at *
  have regular : Regular (bits % leadingBit + leadingBit) ((bits / leadingBit : Nat) - 1075) := by
    rw [leadingBit]
    exact ⟨by omega, by omega, by omega, .inr (by rw [leadingBit]; omega)⟩
  have finite : ((bits / leadingBit : Nat) : Int) - 1075 < 972 := by
    rw [leadingBit]
    omega
  have parts := of_bits_parts regular.filled regular finite
  have number : ((((bits / leadingBit : Nat) : Int) - 1075) + 1074).toNat * leadingBit + (bits % leadingBit + leadingBit) = bits := by
    rw [leadingBit]
    omega
  rw [number] at parts
  have log := (regular_log regular).mpr (Nat.le_add_left _ _)
  have above : 1 ≤ totalExponent (bits % leadingBit + leadingBit) ((bits / leadingBit : Nat) - 1075) := by
    rw [totalExponent]
    rw [leadingBit] at *
    omega
  exact ⟨_, _, regular.filled, by rw [same, parts, of_parts_unpack _ _ regular finite], above⟩

end Flowstep.Decimal
