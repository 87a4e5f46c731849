import Flowstep.Script.Builtin
import Mathlib.Algebra.Order.Group.Int

/-!
Arithmetic on script integers.
-/
namespace Flowstep.Script

inductive Counts : Value → Int → Prop where
  | int (w : Int64) : Counts (.int w) w.toInt
  | bool (flag : Bool) : Counts (.bool flag) flag.toInt

def Held (n : Int) : Prop := Word.least ≤ n ∧ n ≤ Word.greatest

inductive Exact (n : Int) (otherwise : Except Stop Value) : Except Stop Value → Prop where
  | fits (w : Int64) (same : w.toInt = n) : Exact n otherwise (.ok (.int w))
  | out (wide : ¬ Held n) : Exact n otherwise otherwise

-- The words that a remainder is computed from: the truncated quotient, and the truncated remainder plus the divisor.
def Steady (a b : Int) : Prop := ¬ (a = Word.least ∧ b = -1) ∧ Held (a.tmod b + b)

theorem held_word (w : Int64) : Held w.toInt := by
  have low := w.le_toInt
  have high := w.toInt_lt
  unfold Held Word.least Word.greatest
  omega

variable {n : Int}

theorem word_to_int (held : Held n) : (Int64.ofInt n).toInt = n := by
  unfold Held Word.least Word.greatest at held
  exact Int64.toInt_ofInt_of_le (by omega) (by omega)

theorem word_of_held (held : Held n) : Word.ofInt? n = some (Int64.ofInt n) := if_pos held

theorem no_word (wide : ¬ Held n) : Word.ofInt? n = none := if_neg wide

theorem checked_exact (n : Int) : Exact n (fail (.value "integer overflow")) (checkedInt n) := by
  by_cases held : Held n
  · rw [checkedInt, word_of_held held]
    exact .fits _ (word_to_int held)
  · rw [checkedInt, no_word held]
    exact .out held

theorem absolute_exact (w : Int64) : Exact w.toInt.natAbs (.error .abort) (Builtin.absolute (.int w)) := by
  by_cases held : Held w.toInt.natAbs
  · rw [Builtin.absolute, word_of_held held]
    exact .fits _ (word_to_int held)
  · rw [Builtin.absolute, no_word held]
    exact .out held

theorem counts_word {v : Value} (counts : Counts v n) : ∃ w, v.asInt? = some w ∧ w.toInt = n := by
  cases counts with
  | int w => exact ⟨w, rfl, rfl⟩
  | bool flag => cases flag <;> exact ⟨_, rfl, rfl⟩

variable {b : Int}

theorem shifted_remainder_pos (a : Int) (pos : 0 < b) : (a.tmod b + b).tmod b = a.fmod b := by
  have above := Int.lt_tmod_of_pos a pos
  rw [Int.tmod_eq_emod_of_nonneg (by omega), Int.add_emod_right, Int.fmod_eq_emod_of_nonneg _ pos.le, Int.tmod_def,
    Int.sub_mul_emod_self_left]

-- The truncated remainder of the truncated remainder plus the divisor has the sign of the divisor.
theorem shifted_remainder (a : Int) (other : b ≠ 0) : (a.tmod b + b).tmod b = a.fmod b := by
  rcases lt_or_gt_of_ne other with below | above
  · have mirrored := shifted_remainder_pos (-a) (Int.neg_pos_of_neg below)
    rwa [Int.neg_tmod, Int.tmod_neg, ← Int.neg_add, Int.neg_tmod, Int.tmod_neg, Int.neg_fmod_neg, Int.neg_inj] at mirrored
  · exact shifted_remainder_pos a above

theorem remainder_held (a : Int) (held : Held b) (other : b ≠ 0) : Held (a.tmod b) := by
  have size : (a.tmod b).natAbs < b.natAbs := by
    rw [Int.natAbs_tmod]
    exact Nat.mod_lt _ (Int.natAbs_pos.mpr other)
  unfold Held Word.least Word.greatest at *
  omega

variable {v w : Int64}

theorem floor_mod_steady (other : w.toInt ≠ 0) (steady : Steady v.toInt w.toInt) :
    ∃ r : Int64, floorMod v w = .ok (.int r) ∧ r.toInt = v.toInt.fmod w.toInt := by
  refine ⟨Int64.ofInt ((v.toInt.tmod w.toInt + w.toInt).tmod w.toInt), ?_, ?_⟩
  · rw [floorMod, if_neg (by simpa using steady.1), word_of_held steady.2]
    simp only [word_to_int steady.2]
  · rw [word_to_int (remainder_held _ (held_word w) other), shifted_remainder _ other]

theorem floor_mod_unsteady (unsteady : ¬ Steady v.toInt w.toInt) : floorMod v w = .error .abort := by
  unfold floorMod
  dsimp only
  split
  · rfl
  · rename_i first
    rw [no_word fun held => unsteady ⟨by simpa using first, held⟩]

theorem integer_arithmetic_is_exact (left right : Value) (a b : Int) (first : Counts left a) (second : Counts right b)
    (w : Int64) :
    Exact (a + b) (fail (.value "integer overflow")) (binary .add left right) ∧
    Exact (a - b) (fail (.value "integer overflow")) (binary .sub left right) ∧
    Exact (a * b) (fail (.value "integer overflow")) (binary .mul left right) ∧
    Exact (-w.toInt) (fail (.value "integer overflow")) (negateValue (.int w)) ∧
    Exact w.toInt.natAbs (.error .abort) (Builtin.call "abs" ⟨[.int w], []⟩) ∧
    (b = 0 → binary .mod left right = fail .zeroDivision) ∧
    (b ≠ 0 → Steady a b → ∃ r : Int64, binary .mod left right = .ok (.int r) ∧ r.toInt = a.fmod b) ∧
    (b ≠ 0 → ¬ Steady a b → binary .mod left right = .error .abort) := by
  obtain ⟨u, isLeft, rfl⟩ := counts_word first
  obtain ⟨v, isRight, rfl⟩ := counts_word second
  have words (op : BinOp) : binary op left right = intBinary op u v := by rw [binary, isLeft, isRight]
  have zero : v = 0 ↔ v.toInt = 0 := by
    rw [← Int64.toInt_inj]
    rfl
  simp only [words]
  refine ⟨checked_exact _, checked_exact _, checked_exact _, checked_exact _, absolute_exact w, ?_, ?_, ?_⟩
  · intro nothing
    exact if_pos (zero.mpr nothing)
  · intro other steady
    rw [intBinary, if_neg (mt zero.mp other)]
    exact floor_mod_steady other steady
  · intro other unsteady
    rw [intBinary, if_neg (mt zero.mp other)]
    exact floor_mod_unsteady unsteady

theorem truth_and_least_word : Counts (.bool true) 1 ∧ Counts (.int Int64.minValue) Word.least ∧
    Exact (1 - Word.least) (fail (.value "integer overflow")) (binary .sub (.bool true) (.int Int64.minValue)) := by
  have first : Counts (.bool true) 1 := .bool true
  have second : Counts (.int Int64.minValue) Word.least := .int Int64.minValue
  exact ⟨first, second, (integer_arithmetic_is_exact _ _ _ _ first second 0).2.1⟩

-- The remainders of the least integer by minus one and of large integers would fit, and so would an overflow be told.
theorem words_left_unguarded : binary .mod (.int Int64.minValue) (.int (-1)) = .error .abort ∧ Int.fmod Word.least (-1) = 0 ∧
    binary .mod (.int (Int64.maxValue - 1)) (.int Int64.maxValue) = .error .abort ∧
    Int.fmod (Word.greatest - 1) Word.greatest = Word.greatest - 1 ∧
    Builtin.call "abs" ⟨[.int Int64.minValue], []⟩ = .error .abort := by
  refine ⟨rfl, by decide, rfl, by decide, rfl⟩

end Flowstep.Script
