import Flowstep.Proofs.JoinedText

/-!
The characters that numbers are written with.
-/
namespace Flowstep.Decimal

open Text (Plain)

theorem drop_zeros_mem {cs : List Char} {c : Char} (member : c ∈ dropZeros cs) : c ∈ cs := by
  unfold dropZeros at member
  split at member
  · exact List.mem_of_mem_take member
  · exact List.mem_reverse.mp ((List.dropWhile_suffix _).subset (List.mem_reverse.mp member))

theorem shortest_digits {tie : Tie} {x : Float} {c : Char} (member : c ∈ (shortest tie x).digits) :
    c.isDigit := by
  have zero : c ∈ ['0'] → c.isDigit := by
    intro single
    rw [List.mem_singleton.mp single]
    rfl
  unfold shortest at member
  dsimp only at member
  split at member
  · exact zero member
  · split at member
    · exact Nat.isDigit_of_mem_toDigits (by decide) (by decide) (drop_zeros_mem member)
    · exact zero member

def isNumeral (c : Char) : Bool := c.isDigit || ['.', '+', '-', 'e', 'N', 'a', 'i', 'n', 'f'].contains c

theorem to_digits_numerals (n : Nat) : ∀ c ∈ Nat.toDigits 10 n, isNumeral c := by
  intro c member
  rw [isNumeral, Nat.isDigit_of_mem_toDigits (by decide) (by decide) member, Bool.true_or]

theorem nat_numerals {n : Nat} : ∀ c ∈ (toString n).toList, isNumeral c := by
  rw [Nat.toString_eq_ofList_toDigits, String.toList_ofList]
  exact to_digits_numerals n

theorem int_numerals (n : Int) : ∀ c ∈ (toString n).toList, isNumeral c := by
  cases n with
  | ofNat n => exact nat_numerals
  | negSucc n =>
    change ∀ c ∈ ("-" ++ toString (n + 1)).toList, isNumeral c
    rw [String.toList_append]
    exact List.forall_mem_append.mpr ⟨List.all_eq_true.mp rfl, nat_numerals⟩

theorem positional_text_numerals (keepPoint : Bool) {d : Digits} (digits : ∀ c ∈ d.digits, isNumeral c) :
    ∀ c ∈ positionalText keepPoint d, isNumeral c := by
  have zeros (n : Nat) : ∀ c ∈ List.replicate n '0', isNumeral c := by
    intro c member
    rw [List.eq_of_mem_replicate member]
    decide
  unfold positionalText
  dsimp only
  split
  · simp only [List.forall_mem_cons, List.forall_mem_append]
    exact ⟨by decide, by decide, zeros _, digits⟩
  · split
    · rw [List.forall_mem_append, List.forall_mem_append]
      exact ⟨⟨digits, zeros _⟩, by cases keepPoint <;> exact List.all_eq_true.mp rfl⟩
    · rw [List.forall_mem_append, List.forall_mem_cons]
      exact ⟨fun c member => digits c (List.mem_of_mem_take member), by decide,
        fun c member => digits c (List.mem_of_mem_drop member)⟩

theorem scientific_text_numerals {d : Digits} (digits : ∀ c ∈ d.digits, isNumeral c) : ∀ c ∈ scientificText d, isNumeral c := by
  have pointed : ∀ c ∈ withPoint d.digits, isNumeral c := by
    unfold withPoint
    split
    · exact List.all_eq_true.mp rfl
    · rename_i single
      exact single ▸ digits
    · rename_i d rest _ same
      rw [same, List.forall_mem_cons] at digits
      simp only [List.forall_mem_cons]
      exact ⟨digits.1, by decide, digits.2⟩
  unfold scientificText
  simp only [List.forall_mem_append, List.forall_mem_cons]
  exact ⟨pointed, by decide, by split <;> decide, to_digits_numerals _⟩

theorem write_numerals {l : Layout} {x : Float} : ∀ c ∈ (l.write x).toList, isNumeral c := by
  have digits : ∀ c ∈ (shortest l.tie x).digits, isNumeral c := by
    intro c member
    rw [isNumeral, shortest_digits member, Bool.true_or]
  unfold Layout.write
  split
  · exact List.all_eq_true.mp rfl
  · dsimp only
    rw [String.toList_ofList, List.forall_mem_append]
    constructor
    · split <;> exact List.all_eq_true.mp rfl
    · split
      · exact List.all_eq_true.mp rfl
      · split
        · exact positional_text_numerals _ digits
        · exact scientific_text_numerals digits

theorem numerals_plain {text : String} (numerals : ∀ c ∈ text.toList, isNumeral c) : Plain text :=
  fun member => absurd (numerals '\n' member) (by decide)

theorem nat_plain (n : Nat) : Plain (toString n) := numerals_plain (nat_numerals)

@[simp] theorem repr_plain (n : Nat) : Plain n.repr := nat_plain n

theorem int_plain (n : Int) : Plain (toString n) := numerals_plain (int_numerals n)

@[simp] theorem write_plain {l : Layout} (x : Float) : Plain (l.write x) := numerals_plain (write_numerals)

end Flowstep.Decimal
