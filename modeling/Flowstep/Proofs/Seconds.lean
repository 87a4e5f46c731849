import Flowstep.Proofs.Operands

/-!
The text of a time is a number of a script as long as the time is below 2 ^ 63 seconds.
-/
namespace Flowstep.Decimal

open Script (pointed Power Numeral IsNumber)

variable {x : Float} {m : Nat} {q : Int}

theorem time_shape (filled : 0 < m) (same : x.toModel.unpack = .finite .positive m q filled) :
    ∃ c whole fraction, (plain.write x).toList = c :: whole ++ pointed fraction ∧ (∀ d ∈ c :: whole, isDigit d) ∧
      (∀ d ∈ fraction, isDigit d) ∧ Rounds m q (natOfDigits (c :: whole ++ fraction) * 10 ^ (-(fraction.length : Int))) ∧
      (fraction = [] ↔ ((shortest .up x).digits.length : Int) ≤ (shortest .up x).exponent + 1) ∧
      (natOfDigits (c :: whole ++ fraction) : ℚ) * 10 ^ (-(fraction.length : Int)) = (shortest .up x).value := by
  obtain ⟨regular, finite, _⟩ := unpack_bits filled same
  obtain ⟨mantissa, exponent⟩ := parts_finite filled same
  have regularParts : Regular (parts x).mantissa (parts x).exponent := by rwa [mantissa, exponent]
  have rounds := shortest_rounds .up regularParts
  have finiteText : x.isFinite = true := by
    change x.toModel.unpack.isFinite = true
    rw [same]
    rfl
  have unsigned : isNegative x = false := by
    simpa using (is_negative_finite filled same).not.mpr (by simp)
  obtain ⟨c, whole, fraction, power, k, text, wholes, fractions, raised, _, value, _, kept⟩ :=
    body_shape plain regularParts (by rwa [exponent])
  obtain ⟨rfl, point⟩ := kept rfl
  cases raised
  rw [List.append_nil] at text
  rw [zero_sub] at value
  refine ⟨c, whole, fraction, ?_, wholes, fractions, ?_, ?_, value⟩
  · rw [write_finite plain finiteText, unsigned, if_neg (by decide), List.nil_append, text]
  · rw [mantissa, exponent] at rounds
    rw [value]
    exact rounds
  · rw [point]
    exact and_iff_right rfl

theorem time_numeral (positive : 0 < x) (below : x < 9223372036854775808) :
    ∃ token v, IsNumber token v ∧ Numeral (plain.write x).toList token := by
  obtain ⟨m, q, filled, same⟩ := positive_finite positive (below_finite positive below)
  have regular := (unpack_bits filled same).1
  obtain ⟨c, whole, fraction, text, wholes, fractions, rounds, _⟩ := time_shape filled same
  rw [text]
  cases fraction with
  | nil =>
    have small : natOfDigits (c :: whole) < 9223372036854775808 := by
      have high := rounds_below rounds
      have power : (2 : ℚ) ^ q ≤ 2 ^ (10 : Int) :=
        zpow_le_zpow_right₀ (by norm_num) ((below_limit filled same).mp below)
      have mantissa : (m : ℚ) + 1 ≤ 9007199254740992 := by exact_mod_cast regular.short
      have product : (2 * m + 1) * (2 : ℚ) ^ q ≤ (2 * 9007199254740992 - 1) * 2 ^ (10 : Int) :=
        mul_le_mul (by linarith) power (by positivity) (by norm_num)
      simp only [List.append_nil, List.length_nil, Nat.cast_zero, neg_zero] at high
      have bound : (natOfDigits (c :: whole) : ℚ) < 9223372036854775808 := by
        linarith
      exact_mod_cast bound
    rw [pointed, List.append_nil]
    exact ⟨_, _, .int _, Script.numeral_whole wholes (by omega)⟩
  | cons d fraction =>
    have numeral := Script.numeral_decimal c whole (d :: fraction) [] 0 wholes fractions .none (.inl (by simp))
    rw [List.append_nil] at numeral
    exact ⟨_, _, .float _, numeral⟩

theorem rounds_least {r : ℚ} (regular : Regular m q) (above : 11 ≤ q) (other : ¬(m = leadingBit ∧ q = 11))
    (rounds : Rounds m q r) : 9223372036854775808 ≤ r := by
  have normal := regular.normal.resolve_left (by omega)
  have least : 4 * m - 2 ≤ (roundingOf m q).low := by
    simp only [roundingOf]
    split <;> omega
  have mantissa : (4 * m - 2 : ℚ) ≤ (roundingOf m q).low := by
    have cast : ((4 * m - 2 : Nat) : ℚ) ≤ (roundingOf m q).low := by exact_mod_cast least
    rw [leadingBit] at normal
    rwa [Nat.cast_sub (by omega), Nat.cast_mul] at cast
  have power (k : Int) (less : k ≤ q) : (2 : ℚ) ^ k ≤ 2 ^ q := zpow_le_zpow_right₀ (by norm_num) less
  have low := rounds.low
  rcases Int.lt_or_eq_of_le above with more | rfl
  · have scaled : (4 * 4503599627370496 - 2) * (2 : ℚ) ^ (12 : Int) ≤ (roundingOf m q).low * 2 ^ q := by
      have many : (4503599627370496 : ℚ) ≤ m := by exact_mod_cast normal
      exact mul_le_mul (by linarith) (power 12 (by omega)) (by positivity) (by linarith)
    linarith
  · have more : (4503599627370497 : ℚ) ≤ m := by
      have next : leadingBit + 1 ≤ m := by omega
      exact_mod_cast next
    linarith

-- The least time that does not fit. What rounds to it may be smaller, but its shortest digits are not.
theorem limit_value : (shortest .up 9223372036854775808).value = 9223372036854776000 := by
  have digits : natOfDigits (shortest .up 9223372036854775808).digits = 9223372036854776 := by decide +kernel
  have length : (shortest .up 9223372036854775808).digits.length = 16 := by decide +kernel
  have exponent : (shortest .up 9223372036854775808).exponent = 18 := by decide +kernel
  rw [Digits.value, digits, length, exponent]
  norm_num

theorem time_value (filled : 0 < m) (same : x.toModel.unpack = .finite .positive m q filled) (large : 11 ≤ q)
    (rounds : Rounds m q (shortest .up x).value) : 9223372036854775808 ≤ (shortest .up x).value := by
  by_cases limit : m = leadingBit ∧ q = 11
  · obtain ⟨rfl, rfl⟩ := limit
    have least : x = 9223372036854775808 := by
      rw [eq_of_parts filled same]
      rfl
    rw [least, limit_value]
    norm_num
  · exact rounds_least (unpack_bits filled same).1 large limit rounds

theorem time_overflow (positive : 0 < x) (finite : x.isFinite = true) (above : ¬x < 9223372036854775808) :
    ∃ c cs, (plain.write x).toList = c :: cs ∧ (∀ d ∈ c :: cs, isDigit d) ∧ 9223372036854775808 ≤ natOfDigits (c :: cs) := by
  obtain ⟨m, q, filled, same⟩ := positive_finite positive finite
  have regular := (unpack_bits filled same).1
  obtain ⟨mantissa, exponent⟩ := parts_finite filled same
  have large : 11 ≤ q := by
    rw [below_limit filled same] at above
    omega
  obtain ⟨c, whole, fraction, text, wholes, _, rounds, integral, value⟩ := time_shape filled same
  have least := time_value filled same large (value ▸ rounds)
  have most : (shortest .up x).value < 10 ^ ((shortest .up x).exponent + 1) := by
    have digits := nat_of_digits_bound (shortest_all_digits .up x)
    have cast : (natOfDigits (shortest .up x).digits : ℚ) < 10 ^ ((shortest .up x).digits.length : Int) := by
      exact_mod_cast digits
    calc (shortest .up x).value
        < 10 ^ ((shortest .up x).digits.length : Int) * 10 ^ ((shortest .up x).exponent - ((shortest .up x).digits.length - 1)) :=
          mul_lt_mul_of_pos_right cast (by positivity)
      _ = 10 ^ ((shortest .up x).exponent + 1) := by
          rw [← zpow_add₀ (by norm_num)]
          congr 1
          omega
  have places : 18 < (shortest .up x).exponent + 1 := by
    have power : (10 : ℚ) ^ (18 : Int) < 10 ^ ((shortest .up x).exponent + 1) := by
      have tenth : (10 : ℚ) ^ (18 : Int) < 9223372036854775808 := by norm_num
      exact (tenth.trans_le least).trans most
    exact (zpow_lt_zpow_iff_right₀ (by norm_num)).mp power
  have short := shortest_short .up x (by rwa [mantissa, exponent])
  obtain rfl := integral.mpr (by omega)
  refine ⟨c, whole, by rw [text, pointed, List.append_nil], wholes, ?_⟩
  simp only [List.append_nil, List.length_nil, Nat.cast_zero, neg_zero, zpow_zero, mul_one] at value
  rw [← value] at least
  exact_mod_cast least

end Flowstep.Decimal

namespace Flowstep.Code

open Script (Expr Value)

variable {x : Float}

theorem seconds_number (positive : 0 < x) (below : x < 9223372036854775808) :
    (∀ floor, Script.Spells floor 7 (Decimal.plain.write x) (secondsExpr x)) ∧
      ∃ v y, secondsExpr x = .lit v ∧ v.asFloat? = some y := by
  obtain ⟨token, v, number, numeral⟩ := Decimal.time_numeral positive below
  have read := numeral.reads 0 [] (by intro c head; cases head)
  rw [List.append_nil] at read
  have expr : secondsExpr x = .lit v ∧ ∃ y, v.asFloat? = some y := by
    rw [secondsExpr, read]
    cases number with
    | int n => exact ⟨rfl, _, rfl⟩
    | float y => exact ⟨rfl, _, rfl⟩
  rw [expr.1]
  exact ⟨fun floor => Script.spells_numeral number numeral, v, expr.2.choose, rfl, expr.2.choose_spec⟩

theorem readable_below (below : x < 9223372036854775808) : ReadableTime x :=
  fun positive => (seconds_number positive below).1

theorem readable_exact (below : x < 9007199254740992) : ReadableTime x :=
  fun positive => (seconds_number positive (Decimal.exact_below positive below)).1

end Flowstep.Code
