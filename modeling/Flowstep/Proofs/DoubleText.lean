import Flowstep.Proofs.Rounding
import Flowstep.Proofs.Numerals
import Flowstep.Proofs.Spelling

/-!
The text of a double is read as the double.
-/
namespace Flowstep.Decimal

open Float.Model.UnpackedFloat (Sign)
open Script (pointed Power Numeral)

theorem nat_of_digits_bound {cs : List Char} (digits : ∀ c ∈ cs, isDigit c) : natOfDigits cs < 10 ^ cs.length := by
  induction cs with
  | nil => decide
  | cons c rest ih =>
    obtain ⟨high, others⟩ := List.forall_mem_cons.mp digits
    have top := (Script.digit_bounds high).2
    have tail := ih others
    rw [← List.singleton_append, nat_of_digits_append, List.length_append, pow_add]
    have digit : natOfDigits [c] ≤ 9 := by simp [natOfDigits]; omega
    calc natOfDigits [c] * 10 ^ rest.length + natOfDigits rest < natOfDigits [c] * 10 ^ rest.length + 10 ^ rest.length :=
          Nat.add_lt_add_left tail _
      _ = (natOfDigits [c] + 1) * 10 ^ rest.length := by ring
      _ ≤ 10 ^ [c].length * 10 ^ rest.length := Nat.mul_le_mul_right _ (by simp; omega)

theorem drop_zeros_filled {cs : List Char} (filled : cs ≠ []) : dropZeros cs ≠ [] := by
  unfold dropZeros
  split
  · cases cs with
    | nil => exact absurd rfl filled
    | cons c rest => simp
  · rename_i kept
    exact fun empty => kept (List.reverse_eq_nil_iff.mp empty)

variable (tie : Tie) (x : Float)

theorem shortest_filled : (shortest tie x).digits ≠ [] := by
  unfold shortest
  dsimp only
  split
  · exact List.cons_ne_nil _ _
  · split
    · exact drop_zeros_filled Nat.toDigits_ne_nil
    · exact List.cons_ne_nil _ _

theorem shortest_all_digits : ∀ c ∈ (shortest tie x).digits, isDigit c := fun c member => by
  simpa [isDigit, Char.isDigit, Char.le_def] using shortest_digits member

theorem shortest_short (regular : Regular (parts x).mantissa (parts x).exponent) : (shortest tie x).digits.length ≤ 18 := by
  unfold shortest
  dsimp only
  generalize (parts x).mantissa = m at *
  generalize (parts x).exponent = q at *
  split
  · decide
  · split
    · rename_i n place found
      obtain ⟨fine, _, hit⟩ := first_grid_hit 17 1 found
      have high := (on_grid_rounds hit).high
      have log := (floor_log_ten q regular.filled).2
      have one : (1 : ℚ) ≤ m := by exact_mod_cast regular.filled
      have power : (0 : ℚ) < 2 ^ q := by positivity
      have twice : ((roundingOf m q).high : ℚ) * 2 ^ q ≤ 6 * (m * 2 ^ q) := by
        have : ((roundingOf m q).high : ℚ) = 4 * m + 2 := by simp [roundingOf]
        nlinarith
      have scaled : (10 : ℚ) ^ (floorLog10 m q + 1) ≤ 10 ^ place * 10 ^ (17 : Int) := by
        rw [← zpow_add₀ (by norm_num)]
        exact zpow_le_zpow_right₀ (by norm_num) (by omega)
      have ten : (0 : ℚ) < 10 ^ place := by positivity
      have less : (n : ℚ) * 10 ^ place < 1000000000000000000 * 10 ^ place := by linarith
      replace less : (n : ℚ) < 1000000000000000000 := lt_of_mul_lt_mul_right less ten.le
      have count : digitCount n ≤ 18 :=
        (Nat.length_toDigits_le_iff (by decide) (by decide)).mpr (by exact_mod_cast less)
      have kept : (dropZeros (Nat.toDigits 10 n)).length ≤ (Nat.toDigits 10 n).length := by
        unfold dropZeros
        split
        · exact List.length_take_le' 1 _
        · have less := List.length_dropWhile_le (· = '0') (Nat.toDigits 10 n).reverse
          rwa [List.length_reverse] at less ⊢
      exact kept.trans count
    · decide

theorem positional_shape (keep : Bool) {d : Digits} (filled : d.digits ≠ []) (digits : ∀ c ∈ d.digits, isDigit c) :
    ∃ c whole fraction, positionalText keep d = c :: whole ++ pointed fraction ∧ (∀ x ∈ c :: whole, isDigit x) ∧
      (∀ x ∈ fraction, isDigit x) ∧ (natOfDigits (c :: whole ++ fraction) : ℚ) * 10 ^ (-(fraction.length : Int)) = d.value ∧
      (c :: whole ++ fraction).length ≤ d.digits.length + d.exponent.natAbs + 2 ∧
      (fraction = [] ↔ keep = false ∧ (d.digits.length : Int) ≤ d.exponent + 1) := by
  have zeros (n : Nat) : ∀ c ∈ List.replicate n '0', isDigit c := by
    intro c member
    rw [List.eq_of_mem_replicate member]
    rfl
  have some := List.length_pos_iff.mpr filled
  unfold positionalText Digits.value
  dsimp only
  split
  · rename_i small
    refine ⟨'0', [], List.replicate ((-d.exponent).toNat - 1) '0' ++ d.digits, ?_, by decide,
      List.forall_mem_append.mpr ⟨zeros _, digits⟩, ?_, ?_, ?_⟩
    · obtain ⟨c, cs, split⟩ := List.exists_cons_of_ne_nil (List.append_ne_nil_of_right_ne_nil
        (List.replicate ((-d.exponent).toNat - 1) '0') filled)
      rw [split]
      rfl
    · have zero : natOfDigits ['0'] = 0 := rfl
      rw [nat_of_digits_append, nat_of_digits_append, nat_of_digits_zeros, zero, List.length_append, List.length_replicate,
        Nat.zero_mul, Nat.zero_mul, Nat.zero_add, Nat.zero_add]
      congr 2
      omega
    · simp only [List.length_append, List.length_replicate, List.length_cons, List.length_nil]
      omega
    · constructor
      · intro empty
        exact absurd (List.append_eq_nil_iff.mp empty).2 filled
      · rintro ⟨_, long⟩
        omega
  · rename_i large
    split
    · rename_i fits
      have all : ∀ c ∈ d.digits ++ List.replicate (d.exponent.toNat + 1 - d.digits.length) '0', isDigit c :=
        List.forall_mem_append.mpr ⟨digits, zeros _⟩
      obtain ⟨c, cs, split⟩ := List.exists_cons_of_ne_nil (List.append_ne_nil_of_left_ne_nil filled
        (List.replicate (d.exponent.toNat + 1 - d.digits.length) '0'))
      have value := nat_of_digits_append d.digits (List.replicate (d.exponent.toNat + 1 - d.digits.length) '0')
      have length := congrArg List.length split
      rw [split, nat_of_digits_zeros, Nat.add_zero, List.length_replicate] at value
      rw [List.length_append, List.length_replicate] at length
      rw [split] at all ⊢
      have number : (natOfDigits (c :: cs) : ℚ) = natOfDigits d.digits * 10 ^ (d.exponent - (d.digits.length - 1)) := by
        rw [value, Nat.cast_mul, Nat.cast_pow, ← zpow_natCast]
        congr 2
        omega
      cases keep with
      | false =>
        refine ⟨c, cs, [], ?_, all, by simp, ?_, ?_, ?_⟩
        · simp [pointed]
        · simpa using number
        · rw [List.append_nil]
          omega
        · simp
          omega
      | true =>
        refine ⟨c, cs, ['0'], rfl, all, by decide, ?_, ?_, by simp⟩
        · rw [nat_of_digits_append, ← number]
          simp [natOfDigits]
        · simp only [List.length_append, List.length_cons, List.length_nil] at length ⊢
          omega
    · rename_i long
      obtain ⟨c, whole, wholes⟩ := List.exists_cons_of_ne_nil (l := d.digits.take (d.exponent.toNat + 1)) (by simp [filled])
      obtain ⟨e, fraction, fractions⟩ := List.exists_cons_of_ne_nil (by
        rw [Ne, List.drop_eq_nil_iff]; omega)
      have whole' : c :: whole ++ e :: fraction = d.digits := by rw [← wholes, ← fractions, List.take_append_drop]
      have length := congrArg List.length fractions
      rw [List.length_drop] at length
      refine ⟨c, whole, e :: fraction, by rw [wholes, fractions]; rfl,
        fun x member => digits x (List.mem_of_mem_take (wholes ▸ member)),
        fun x member => digits x (List.mem_of_mem_drop (fractions ▸ member)), ?_, ?_, ?_⟩
      · rw [whole']
        congr 2
        omega
      · rw [whole']
        omega
      · simp
        omega

theorem scientific_shape {d : Digits} (filled : d.digits ≠ []) (digits : ∀ c ∈ d.digits, isDigit c)
    (small : d.exponent.natAbs < exponentLimit) :
    ∃ c fraction power k, scientificText d = [c] ++ (pointed fraction ++ power) ∧ isDigit c ∧ (∀ x ∈ fraction, isDigit x) ∧
      Power power k ∧ power ≠ [] ∧ (natOfDigits ([c] ++ fraction) : ℚ) * 10 ^ (k - fraction.length) = d.value ∧
      [c] ++ fraction = d.digits := by
  obtain ⟨c, fraction, split⟩ := List.exists_cons_of_ne_nil filled
  obtain ⟨e, es, exponent⟩ := List.exists_cons_of_ne_nil (Nat.toDigits_ne_nil)
  have value : natOfDigits (e :: es) = d.exponent.natAbs := by rw [← exponent, Script.nat_digits]
  have all : ∀ x ∈ e :: es, isDigit x := exponent ▸ Script.digit_chars d.exponent.natAbs
  have point : withPoint (c :: fraction) = [c] ++ pointed fraction := by cases fraction <;> rfl
  obtain ⟨first, others⟩ := List.forall_mem_cons.mp (split ▸ digits)
  unfold scientificText Digits.value
  rw [split, point, exponent]
  have length : ((c :: fraction).length : Int) - 1 = fraction.length := by simp
  rw [length]
  by_cases down : d.exponent < 0
  · rw [if_pos down]
    have raised := Power.down e es all (by rw [value]; exact small)
    refine ⟨c, fraction, _, _, rfl, first, others, raised, by simp, ?_, rfl⟩
    congr 3
    omega
  · rw [if_neg down]
    have raised := Power.up e es all (by rw [value]; exact small)
    refine ⟨c, fraction, _, _, rfl, first, others, raised, by simp, ?_, rfl⟩
    congr 3
    omega

variable {m : Nat} {q : Int}

theorem rounds_above {r : ℚ} (filled : 0 < m) (rounds : Rounds m q r) : (2 : ℚ) ^ q ≤ 2 * r := by
  have least : 2 ≤ (roundingOf m q).low := by
    simp only [roundingOf]
    split <;> omega
  have cast : (2 : ℚ) ≤ (roundingOf m q).low := by exact_mod_cast least
  have power : (0 : ℚ) < 2 ^ q := by positivity
  nlinarith [rounds.low]

theorem rounds_below {r : ℚ} (rounds : Rounds m q r) : 2 * r ≤ (2 * m + 1) * 2 ^ q := by
  have high := rounds.high
  have value : ((roundingOf m q).high : ℚ) = 4 * m + 2 := by simp [roundingOf]
  rw [value] at high
  linarith

variable {exponent : Int}

theorem decimal_size {digits : Nat} (regular : Regular m q) (upper : q ≤ 973) (rounds : Rounds m q (digits * 10 ^ exponent)) :
    0 < digits ∧ -400 ≤ digitCount digits + exponent ∧ (digitCount digits : Int) + exponent ≤ 400 := by
  have low := rounds_above regular.filled rounds
  have high := rounds_below rounds
  have power : (0 : ℚ) < 2 ^ q := by positivity
  have ten : (0 : ℚ) < 10 ^ exponent := by positivity
  have some : 0 < digits := by
    rcases Nat.eq_zero_or_pos digits with rfl | some
    · simp only [Nat.cast_zero, zero_mul, mul_zero] at low
      exact absurd low (not_le.mpr power)
    · exact some
  refine ⟨some, ?_, ?_⟩
  · by_contra small
    have count : (digits : ℚ) * 10 ^ exponent < 10 ^ (-400 : Int) := calc
      (digits : ℚ) * 10 ^ exponent < 10 ^ (digitCount digits : Int) * 10 ^ exponent := by
        refine mul_lt_mul_of_pos_right ?_ ten
        exact_mod_cast digit_count_most digits
      _ = 10 ^ ((digitCount digits : Int) + exponent) := by rw [zpow_add₀ (by norm_num)]
      _ ≤ 10 ^ (-400 : Int) := zpow_le_zpow_right₀ (by norm_num) (by omega)
    have least : (2 : ℚ) ^ (-1074 : Int) ≤ 2 ^ q := zpow_le_zpow_right₀ (by norm_num) regular.least
    have apart : 2 * (10 : ℚ) ^ (-400 : Int) < 2 ^ (-1074 : Int) := by
      have wider : (2 : ℚ) * 2 ^ 1074 < 10 ^ 400 := by exact_mod_cast (by decide +kernel : 2 * 2 ^ 1074 < 10 ^ 400)
      rw [zpow_neg, zpow_neg, ← div_eq_mul_inv, div_lt_iff₀ (by positivity), lt_inv_mul_iff₀ (by positivity), mul_comm]
      exact_mod_cast wider
    linarith
  · by_contra large
    have count : (10 : ℚ) ^ (400 : Int) ≤ digits * 10 ^ exponent := calc
      (10 : ℚ) ^ (400 : Int) ≤ 10 ^ ((digitCount digits - 1 : Int) + exponent) := zpow_le_zpow_right₀ (by norm_num) (by omega)
      _ = 10 ^ (digitCount digits - 1 : Int) * 10 ^ exponent := by rw [zpow_add₀ (by norm_num)]
      _ ≤ digits * 10 ^ exponent := by
        refine mul_le_mul_of_nonneg_right ?_ ten.le
        obtain ⟨one, least⟩ := digit_count_least some
        exact_mod_cast least
    have most : (2 : ℚ) ^ q ≤ 2 ^ (973 : Int) := zpow_le_zpow_right₀ (by norm_num) upper
    have short : (m : ℚ) ≤ 9007199254740992 := by exact_mod_cast regular.short.le
    have apart : (2 * 9007199254740992 + 1) * (2 : ℚ) ^ (973 : Int) < 10 ^ (400 : Int) := by
      exact_mod_cast (by decide +kernel : (2 * 9007199254740992 + 1) * 2 ^ 973 < 10 ^ 400)
    have bound : (2 * m + 1) * (2 : ℚ) ^ q ≤ (2 * 9007199254740992 + 1) * 2 ^ (973 : Int) :=
      mul_le_mul (by linarith) most power.le (by norm_num)
    have less := lt_of_le_of_lt (high.trans bound) apart
    exact absurd (count.trans (le_mul_of_one_le_left (by positivity) (by norm_num : (1 : ℚ) ≤ 2))) (not_le.mpr less)

theorem of_decimal_rounds {digits : Nat} (regular : Regular m q) (finite : (q + 1074).toNat * leadingBit + m ≤ infiniteBits)
    (rounds : Rounds m q (digits * 10 ^ exponent)) :
    ofDecimal false digits exponent = Float.ofBits (UInt64.ofNat ((q + 1074).toNat * leadingBit + m)) := by
  have upper : q ≤ 973 := by
    rw [infiniteBits, leadingBit] at finite
    omega
  obtain ⟨some, low, high⟩ := decimal_size regular upper rounds
  have bits : (if 0 ≤ exponent then bitsOfRatio (digits * Nat.pow 10 exponent.toNat) 1
      else bitsOfRatio digits (Nat.pow 10 (-exponent).toNat)) = (q + 1074).toNat * leadingBit + m := by
    split
    · rename_i up
      refine bits_of_ratio_rounds (by decide) regular finite ?_
      obtain ⟨k, rfl⟩ := Int.eq_ofNat_of_zero_le up
      simpa using rounds
    · rename_i down
      refine bits_of_ratio_rounds (by rw [Nat.pow_eq]; positivity) regular finite ?_
      obtain ⟨k, same⟩ := Int.eq_ofNat_of_zero_le (show 0 ≤ -exponent by omega)
      obtain rfl : exponent = -(k : Int) := by omega
      rw [zpow_neg, ← div_eq_mul_inv] at rounds
      simpa using rounds
  unfold digitCount at low high
  unfold ofDecimal
  dsimp only
  rw [if_neg (by decide), if_neg (by omega), if_neg (by omega), if_neg (by omega), bits]

theorem of_digits_all {digits : List Char} (short : digits.length ≤ decidingDigits) :
    ofDigits false digits exponent = ofDecimal false (natOfDigits digits) exponent := by
  have split := List.takeWhile_append_dropWhile (p := fun c => decide (c = '0')) (l := digits)
  have zeros : digits.takeWhile (fun c => decide (c = '0')) =
      List.replicate (digits.takeWhile (fun c => decide (c = '0'))).length '0' := by
    rw [List.eq_replicate_iff]
    exact ⟨rfl, fun c member => by simpa using List.mem_takeWhile_imp member⟩
  have value : natOfDigits (digits.dropWhile (fun c => decide (c = '0'))) = natOfDigits digits := by
    conv_rhs => rw [← split, zeros, nat_of_digits_append, nat_of_digits_zeros, Nat.zero_mul, Nat.zero_add]
  have length := (List.length_dropWhile_le (fun c => decide (c = '0')) digits).trans short
  unfold ofDigits
  dsimp only
  rw [List.drop_of_length_le length, List.take_of_length_le length, value]
  simp

variable {x : Float}

theorem shortest_exponent (regular : Regular (parts x).mantissa (parts x).exponent)
    (finite : (parts x).exponent < 972) : (shortest tie x).exponent.natAbs ≤ 420 := by
  have rounds := shortest_rounds tie regular
  have short := shortest_short tie x regular
  have digits : ∀ c ∈ (shortest tie x).digits, isDigit c := shortest_all_digits tie x
  have bound := nat_of_digits_bound digits
  have some := List.length_pos_iff.mpr (shortest_filled tie x)
  obtain ⟨value, low, high⟩ := decimal_size regular (by omega) rounds
  have most : digitCount (natOfDigits (shortest tie x).digits) ≤ (shortest tie x).digits.length :=
    (Nat.length_toDigits_le_iff (by decide) some).mpr bound
  omega

-- Digits that stand for a number which rounds to a double are read as the double.
theorem rounds_numeral (filled : 0 < m) (regular : Regular m q) (finite : q < 972) {c : Char}
    {whole fraction power : List Char} {k : Int} (wholes : ∀ x ∈ c :: whole, isDigit x)
    (fractions : ∀ x ∈ fraction, isDigit x) (raised : Power power k) (marked : fraction ≠ [] ∨ power ≠ [])
    (short : (c :: whole ++ fraction).length ≤ decidingDigits)
    (rounds : Rounds m q (natOfDigits (c :: whole ++ fraction) * 10 ^ (k - fraction.length))) :
    Numeral (c :: whole ++ (pointed fraction ++ power)) (.float (ofParts .positive m q filled)) := by
  have numeral := Script.numeral_decimal c whole fraction power k wholes fractions raised marked
  have size : (q + 1074).toNat * leadingBit + m ≤ infiniteBits := by
    have less := regular.short
    rw [infiniteBits, leadingBit]
    omega
  rwa [of_digits_all short, of_decimal_rounds regular size rounds, of_bits_parts filled regular finite]
    at numeral

def Layout.body (l : Layout) (x : Float) : List Char :=
  if l.positional (shortest l.tie x).exponent then positionalText (l.keepsPoint (shortest l.tie x).exponent) (shortest l.tie x)
  else scientificText (shortest l.tie x)

theorem write_finite (l : Layout) (finite : x.isFinite = true) :
    (l.write x).toList = (if isNegative x then ['-'] else []) ++ l.body x := by
  have number : x.isNaN = false ∧ x.isInf = false := by
    change x.toModel.unpack.isFinite = true at finite
    change x.toModel.unpack.isNaN = false ∧ x.toModel.unpack.isInf = false
    cases same : x.toModel.unpack with
    | notANumber => rw [same] at finite; cases finite
    | infinity sign => rw [same] at finite; cases finite
    | zero sign => exact ⟨rfl, rfl⟩
    | finite sign m q filled => exact ⟨rfl, rfl⟩
  unfold Layout.write Layout.body
  rw [number.1, number.2, if_neg Bool.false_ne_true, if_neg Bool.false_ne_true, String.toList_ofList]

theorem body_shape (l : Layout) (regular : Regular (parts x).mantissa (parts x).exponent) (finite : (parts x).exponent < 972) :
    ∃ c whole fraction power k, l.body x = c :: whole ++ (pointed fraction ++ power) ∧ (∀ d ∈ c :: whole, isDigit d) ∧
      (∀ d ∈ fraction, isDigit d) ∧ Power power k ∧ (c :: whole ++ fraction).length ≤ decidingDigits ∧
      (natOfDigits (c :: whole ++ fraction) : ℚ) * 10 ^ (k - fraction.length) = (shortest l.tie x).value ∧
      (fraction = [] ∧ power = [] → l.positional (shortest l.tie x).exponent ∧ l.keepsPoint (shortest l.tie x).exponent = false) ∧
      (l.positional (shortest l.tie x).exponent → power = [] ∧
        (fraction = [] ↔ l.keepsPoint (shortest l.tie x).exponent = false ∧
          ((shortest l.tie x).digits.length : Int) ≤ (shortest l.tie x).exponent + 1)) := by
  have filled := shortest_filled l.tie x
  have digits := shortest_all_digits l.tie x
  have short := shortest_short l.tie x regular
  have small := shortest_exponent l.tie regular finite
  unfold Layout.body
  by_cases positional : l.positional (shortest l.tie x).exponent
  · rw [if_pos positional]
    obtain ⟨c, whole, fraction, text, wholes, fractions, value, length, kept⟩ := positional_shape
      (l.keepsPoint (shortest l.tie x).exponent) filled digits
    refine ⟨c, whole, fraction, [], 0, by rw [text, List.append_nil], wholes, fractions, .none, ?_, ?_, ?_, ?_⟩
    · rw [decidingDigits]
      omega
    · rw [zero_sub]
      exact value
    · rintro ⟨empty, _⟩
      exact ⟨positional, (kept.mp empty).1⟩
    · exact fun _ => ⟨rfl, kept⟩
  · rw [if_neg positional]
    obtain ⟨c, fraction, power, k, text, first, fractions, raised, present, value, same⟩ := scientific_shape filled digits
      (by rw [exponentLimit]; omega)
    refine ⟨c, [], fraction, power, k, text, by simpa using first, fractions, raised, ?_, value, ?_, ?_⟩
    · rw [same, decidingDigits]
      omega
    · rintro ⟨_, empty⟩
      exact absurd empty present
    · intro chosen
      exact absurd chosen positional

end Flowstep.Decimal

namespace Flowstep.Script

open Decimal (isNegative ofParts parts)
open Float.Model.UnpackedFloat (Sign)

theorem float_text_numeral {x : Float} {sign : Sign} {m : Nat} {q : Int} (filled : 0 < m)
    (same : x.toModel.unpack = .finite sign m q filled) :
    Numeral (Json.floatLayout.body x) (.float (ofParts .positive m q filled)) := by
  obtain ⟨regular, finite, _⟩ := Decimal.unpack_bits filled same
  obtain ⟨mantissa, exponent⟩ := Decimal.parts_finite filled same
  have regularParts : Decimal.Regular (parts x).mantissa (parts x).exponent := by rwa [mantissa, exponent]
  have rounds := Decimal.shortest_rounds Json.floatLayout.tie regularParts
  obtain ⟨c, whole, fraction, power, k, text, wholes, fractions, raised, short, value, marked, _⟩ :=
    Decimal.body_shape Json.floatLayout regularParts (by rwa [exponent])
  rw [text]
  rw [mantissa, exponent, ← value] at rounds
  refine Decimal.rounds_numeral filled regular finite wholes fractions raised ?_ short rounds
  by_contra unmarked
  rw [not_or, not_not, not_not] at unmarked
  cases (marked unmarked).2

theorem spells_float {floor : Nat} {x : Float} (finite : x.isFinite = true) :
    Spells floor 6 (Json.floatText x) (.lit (.float x)) := by
  have text : (Json.floatText x).toList = _ := Decimal.write_finite Json.floatLayout finite
  change x.toModel.unpack.isFinite = true at finite
  cases same : x.toModel.unpack with
  | notANumber => rw [same] at finite; cases finite
  | infinity sign => rw [same] at finite; cases finite
  | zero sign =>
    obtain rfl := Decimal.eq_of_unpack same
    have numeral := numeral_decimal '0' [] ['0'] [] 0 (by decide) (by decide) .none (.inl (by simp))
    cases sign with
    | positive => exact spells_below (spells_numeral (.float 0) numeral) (by decide) (by decide)
    | negative => exact spells_negative (.float 0) numeral (by decide +kernel)
  | finite sign m q filled =>
    have numeral := float_text_numeral filled same
    have signed := Decimal.is_negative_finite filled same
    have equal := Decimal.eq_of_parts filled same
    obtain ⟨regular, small, _⟩ := Decimal.unpack_bits filled same
    cases sign with
    | positive =>
      rw [if_neg (by simpa using signed), List.nil_append] at text
      rw [← equal, ← text] at numeral
      exact spells_below (spells_numeral (.float x) numeral) (by decide) (by decide)
    | negative =>
      rw [if_pos (signed.mpr rfl)] at text
      have spells : Spells floor 6 _ _ := spells_negative (.float _) numeral text
      rwa [Parser.negate, Decimal.neg_of_parts filled regular small, ← equal] at spells

end Flowstep.Script
