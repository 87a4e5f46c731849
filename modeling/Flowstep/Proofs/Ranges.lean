import Flowstep.Proofs.Integers

/-!
The numbers that `range` gives.
-/
namespace Flowstep.Script.Builtin

def Before (first last step : Int) (i : Nat) : Prop :=
  if 0 < step then first + i * step < last else last < first + i * step

def distance (first last step : Int) : Int := if 0 < step then last - first else first - last

def countOf (span size : Int) : Int := if span ≤ 0 then 0 else (span - 1) / size + 1

def itemCount (first last step : Int) : Nat := (countOf (distance first last step) step.natAbs).toNat

inductive Gives (first last step : Int) : Except Stop Value → Prop where
  | numbers (words : List Int64) (few : itemCount first last step ≤ maxRangeLength)
    (same : words.map (·.toInt) = (List.range (itemCount first last step)).map fun i : Nat => first + i * step) :
    Gives first last step (.ok (.list (words.map .int)))
  | tooLarge (count : Int) (many : maxRangeLength < itemCount first last step) :
    Gives first last step (fail (.value ("range of " ++ toString count ++ " items is too large")))

theorem lt_count_of {span size : Int} (pos : 0 < size) (i : Nat) : (i : Int) < countOf span size ↔ i * size < span := by
  have least : 0 ≤ (i : Int) * size := Int.mul_nonneg (Int.natCast_nonneg i) pos.le
  unfold countOf
  split
  · omega
  · rw [Int.lt_add_one_iff, Int.le_ediv_iff_mul_le pos, Int.le_sub_one_iff]

theorem count_of_nonneg (span : Int) {size : Int} (pos : 0 < size) : 0 ≤ countOf span size := by
  unfold countOf
  split
  · exact Int.le_refl 0
  · have quotient : 0 ≤ (span - 1) / size := Int.ediv_nonneg (by omega) pos.le
    omega

variable {first last step : Int}

theorem lt_item_count (moves : step ≠ 0) (i : Nat) :
    i < itemCount first last step ↔ i * (step.natAbs : Int) < distance first last step := by
  rw [itemCount, Int.lt_toNat, lt_count_of (by omega)]

theorem before_iff (moves : step ≠ 0) (i : Nat) : Before first last step i ↔ i < itemCount first last step := by
  rw [lt_item_count moves]
  unfold Before distance
  split
  · rw [Int.natAbs_of_nonneg (by omega)]
    omega
  · rw [Int.ofNat_natAbs_of_nonpos (by omega), Int.mul_neg]
    omega

theorem saturate_eq (n : Int) : Word.saturate n = max Word.least (min Word.greatest n) := by
  unfold Word.saturate Word.least Word.greatest
  omega

theorem range_count (moves : step ≠ 0) : 0 < Word.saturate step.natAbs ∧
    rangeCount first last step = countOf (Word.saturate (distance first last step)) (Word.saturate step.natAbs) := by
  constructor
  · rw [saturate_eq, Word.greatest]
    omega
  · unfold rangeCount distance
    split <;> rfl

-- A step whose size is no word is cut off as well; it makes one number at most.
theorem lt_range_count (moves : step ≠ 0) (i : Nat) : (i : Int) < rangeCount first last step ↔
    i * (step.natAbs : Int) < min Word.greatest (distance first last step) := by
  obtain ⟨pos, counted⟩ := @range_count first last step moves
  rw [counted, lt_count_of pos, saturate_eq, saturate_eq]
  have least := Int.mul_nonneg (Int.natCast_nonneg i) (Int.natCast_nonneg step.natAbs)
  unfold Word.least Word.greatest at *
  rcases lt_or_ge (9223372036854775807 : Int) step.natAbs with wide | fits
  · cases i with
    | zero => omega
    | succ i =>
      have all (size : Int) (large : 9223372036854775807 ≤ size) : 9223372036854775807 ≤ ((i + 1 : Nat) : Int) * size := by
        have rest := Int.mul_nonneg (Int.natCast_nonneg i) (Int.le_trans (by decide) large)
        rw [Int.natCast_succ, Int.add_mul]
        omega
      have cut := all (max (-9223372036854775808) (min 9223372036854775807 step.natAbs)) (by omega)
      have whole := all step.natAbs wide.le
      omega
  · rw [min_eq_right fits, max_eq_right (by omega)]
    omega

theorem range_count_le (moves : step ≠ 0) : rangeCount first last step ≤ itemCount first last step := by
  by_contra less
  have within := (lt_range_count moves _).mp (Int.lt_of_not_ge less)
  exact Nat.lt_irrefl _ ((lt_item_count moves _).mpr (lt_min_iff.mp within).2)

theorem range_count_eq (moves : step ≠ 0) (near : distance first last step ≤ Word.greatest) :
    rangeCount first last step = itemCount first last step := by
  refine Int.le_antisymm (range_count_le moves) (Int.not_lt.mp fun less => ?_)
  obtain ⟨pos, counted⟩ := @range_count first last step moves
  obtain ⟨i, same⟩ := Int.eq_ofNat_of_zero_le (counted ▸ count_of_nonneg _ pos)
  have within : i < itemCount first last step := by omega
  rw [lt_item_count moves, ← min_eq_right near, ← lt_range_count moves] at within
  omega

theorem numbers_held (moves : step ≠ 0) (word : Held step) (low : Held first) (high : Held last) {i : Nat}
    (within : (i : Int) < rangeCount first last step) : Held (i * step) ∧ Held (first + i * step) := by
  have bound := (lt_range_count moves i).mp within
  have least := Int.mul_nonneg (Int.natCast_nonneg i) (Int.natCast_nonneg step.natAbs)
  unfold Held distance Word.least Word.greatest at *
  split at bound
  · rw [Int.natAbs_of_nonneg (by omega)] at *
    omega
  · rw [Int.ofNat_natAbs_of_nonpos (by omega), Int.mul_neg] at *
    omega

theorem range_gives (moves : step ≠ 0) (word : Held step) (low : Held first) (high : Held last) :
    Gives first last step (rangeOf first last step) ↔
      rangeCount first last step = itemCount first last step ∨ maxRangeLength < rangeCount first last step := by
  have most := @range_count_le first last step moves
  obtain ⟨pos, counted⟩ := @range_count first last step moves
  obtain ⟨n, number⟩ := Int.eq_ofNat_of_zero_le (counted ▸ count_of_nonneg _ pos)
  have words : ((List.range n).map fun i : Nat => Int64.ofInt (first + i * step)).map (·.toInt) =
      (List.range n).map fun i : Nat => first + i * step := by
    rw [List.map_map]
    refine List.map_congr_left fun i member => word_to_int (numbers_held moves word low high ?_).2
    rw [number]
    exact Int.ofNat_lt.mpr (List.mem_range.mp member)
  rw [rangeOf, if_neg moves]
  dsimp only
  split
  · rename_i many
    exact iff_of_true (.tooLarge _ (by omega)) (.inr many)
  · rename_i few
    have listed : (List.range n).map (fun i : Nat => Value.int (Int64.ofInt (first + i * step))) =
        ((List.range n).map fun i : Nat => Int64.ofInt (first + i * step)).map .int := List.map_map.symm
    rw [or_iff_left few, number, Int.toNat_natCast, Int.natCast_inj, listed]
    constructor
    · intro gives
      generalize ended : Except.ok _ = given at gives
      cases gives with
      | numbers others _ same =>
        have sizes := congrArg List.length (Value.list.inj (Except.ok.inj ended))
        have lengths := congrArg List.length same
        simp only [List.length_map, List.length_range] at sizes lengths
        omega
      | tooLarge count many => cases ended
    · intro same
      exact .numbers _ (by omega) (same ▸ words)

-- The failure for a step of zero; otherwise the numbers are the right ones exactly if their count is, which holds whenever
-- a word holds the distance between the bounds. No step of the computation leaves the words.
theorem range_is_progression (first last step : Int64) :
    (step = 0 → call "range" ⟨[.int first, .int last, .int step], []⟩ = fail (.value "range() arg 3 must not be zero")) ∧
    (step ≠ 0 →
      (∀ i, Before first.toInt last.toInt step.toInt i ↔ i < itemCount first.toInt last.toInt step.toInt) ∧
      (Gives first.toInt last.toInt step.toInt (call "range" ⟨[.int first, .int last, .int step], []⟩) ↔
        rangeCount first.toInt last.toInt step.toInt = itemCount first.toInt last.toInt step.toInt ∨
          maxRangeLength < rangeCount first.toInt last.toInt step.toInt) ∧
      (distance first.toInt last.toInt step.toInt ≤ Word.greatest →
        rangeCount first.toInt last.toInt step.toInt = itemCount first.toInt last.toInt step.toInt) ∧
      ∀ i : Nat, (i : Int) < rangeCount first.toInt last.toInt step.toInt →
        Held (i * step.toInt) ∧ Held (first.toInt + i * step.toInt)) := by
  have called : call "range" ⟨[.int first, .int last, .int step], []⟩ = rangeOf first.toInt last.toInt step.toInt := rfl
  rw [called]
  constructor
  · rintro rfl
    rfl
  · intro other
    have moves : step.toInt ≠ 0 := fun none => other (Int64.toInt_inj.mp none)
    have word := held_word step
    exact ⟨before_iff moves, range_gives moves word (held_word first) (held_word last), range_count_eq moves,
      fun i => numbers_held moves word (held_word first) (held_word last)⟩

theorem wide_range_is_cut : call "range" ⟨[.int Int64.minValue, .int Int64.maxValue, .int Int64.maxValue], []⟩ =
      .ok (.list [.int Int64.minValue]) ∧
    itemCount Int64.minValue.toInt Int64.maxValue.toInt Int64.maxValue.toInt = 3 ∧
    ¬ Gives Int64.minValue.toInt Int64.maxValue.toInt Int64.maxValue.toInt
      (call "range" ⟨[.int Int64.minValue, .int Int64.maxValue, .int Int64.maxValue], []⟩) := by
  refine ⟨rfl, by decide, fun gives => ?_⟩
  have right := (range_gives (by decide) (held_word _) (held_word _) (held_word _)).mp gives
  exact absurd right (by decide)

end Flowstep.Script.Builtin
