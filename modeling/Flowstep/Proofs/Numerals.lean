import Flowstep.Proofs.Scanning

/-!
Numbers of a script with a point or an exponent.
-/
namespace Flowstep.Script

open Decimal (isDigit natOfDigits ofDigits exponentLimit)

def pointed : List Char → List Char
  | [] => []
  | fraction => '.' :: fraction

inductive Power : List Char → Int → Prop where
  | none : Power [] 0
  | up (d : Char) (ds : List Char) (digits : ∀ c ∈ d :: ds, isDigit c) (small : natOfDigits (d :: ds) < exponentLimit) :
      Power ('e' :: '+' :: d :: ds) (natOfDigits (d :: ds))
  | down (d : Char) (ds : List Char) (digits : ∀ c ∈ d :: ds, isDigit c) (small : natOfDigits (d :: ds) < exponentLimit) :
      Power ('e' :: '-' :: d :: ds) (-natOfDigits (d :: ds))

def endsDigits (c : Char) : Bool := c = '.' || c = 'e' || endsNumber c

variable {c : Char}

theorem not_digit (ends : endsDigits c) : isDigit c = false := by
  by_contra digit
  rw [Bool.not_eq_false] at digit
  simp only [endsDigits, endsNumber, digit_continues digit, Bool.or_eq_true, Bool.not_true, Bool.false_and, Bool.false_eq_true,
    or_false, decide_eq_true_eq] at ends
  rcases ends with rfl | rfl
  · exact absurd digit (by decide)
  · exact absurd digit (by decide)

theorem span_number (p : Char → Bool) {cs rest : List Char} (digits : ∀ c ∈ cs, isDigit c) (whole : ∀ c, isDigit c → p c)
    (stops : ∀ c, endsDigits c → p c = isDigit c) (meets : Meets endsDigits rest) : (cs ++ rest).span p = (cs, rest) := by
  refine span_word p (fun c member => whole c (digits c member)) fun c head => ?_
  change (!p c) = true
  rw [stops c (meets c head), not_digit (meets c head)]
  rfl

theorem underscore_continues (c : Char) (ends : endsDigits c) : (isDigit c || decide (c = '_')) = isDigit c := by
  have other : c ≠ '_' := by
    rintro rfl
    exact absurd ends (by decide)
  simp [other]

variable {k : Int}

theorem power_meets (power rest : List Char) (raised : Power power k) (meets : Meets endsNumber rest) :
    Meets (fun c => c = 'e' || endsNumber c) (power ++ rest) := by
  intro c head
  cases raised with
  | none => exact Bool.or_eq_true_iff.mpr (.inr (meets c head))
  | up | down =>
    cases head
    rfl

theorem pointed_meets (fraction after : List Char) (meets : Meets (fun c => c = 'e' || endsNumber c) after) :
    Meets endsDigits (pointed fraction ++ after) := by
  intro c head
  cases fraction with
  | nil =>
    have ends := meets c head
    simp only [endsDigits, Bool.or_eq_true] at ends ⊢
    tauto
  | cons d ds =>
    cases head
    rfl

variable {fraction : List Char}

theorem fraction_digits_pointed {after : List Char} (digits : ∀ c ∈ fraction, isDigit c)
    (meets : Meets (fun c => c = 'e' || endsNumber c) after) :
    fractionDigits (pointed fraction ++ after) = (if fraction = [] then none else some ('.' :: fraction), after) := by
  have ends : Meets endsDigits after := fun c head => by
    have := meets c head
    simp only [endsDigits, Bool.or_eq_true] at this ⊢
    tauto
  cases fraction with
  | nil =>
    change fractionDigits after = (none, after)
    unfold fractionDigits
    split
    · exact absurd (meets '.' rfl) (by decide)
    · rfl
  | cons d ds =>
    have notName : startsName d = false := by
      by_contra name
      rw [Bool.not_eq_false] at name
      exact absurd (digits d List.mem_cons_self) (by rw [start_not_digit name]; decide)
    have spanned := span_number isDigit digits (fun _ digit => digit) (fun _ _ => rfl) ends
    change (if startsName d then (none, '.' :: (d :: ds ++ after))
      else (some ('.' :: ((d :: ds ++ after).span isDigit).1), ((d :: ds ++ after).span isDigit).2)) = _
    rw [if_neg (by rw [notName]; decide), spanned]
    rfl

variable {power : List Char}

theorem exponent_digits_power {rest : List Char} (raised : Power power k) (meets : Meets endsNumber rest) :
    exponentDigits (power ++ rest) = (if power = [] then none else some power, rest) := by
  have ends : Meets endsDigits rest := fun c head => by
    simp only [endsDigits, Bool.or_eq_true]
    tauto
  cases raised with
  | none => exact exponent_digits_none meets
  | up d ds digits =>
    have spanned := span_number isDigit digits (fun _ digit => digit) (fun _ _ => rfl) ends
    change (if ((d :: ds ++ rest).span isDigit).1.isEmpty then (none, 'e' :: '+' :: (d :: ds ++ rest))
      else (some ('e' :: (['+'] ++ ((d :: ds ++ rest).span isDigit).1)), ((d :: ds ++ rest).span isDigit).2)) = _
    rw [spanned]
    rfl
  | down d ds digits =>
    have spanned := span_number isDigit digits (fun _ digit => digit) (fun _ _ => rfl) ends
    change (if ((d :: ds ++ rest).span isDigit).1.isEmpty then (none, 'e' :: '-' :: (d :: ds ++ rest))
      else (some ('e' :: (['-'] ++ ((d :: ds ++ rest).span isDigit).1)), ((d :: ds ++ rest).span isDigit).2)) = _
    rw [spanned]
    rfl

theorem read_mantissa_pointed {whole after : List Char} (wholes : ∀ x ∈ c :: whole, isDigit x)
    (fractions : ∀ x ∈ fraction, isDigit x) (meets : Meets (fun c => c = 'e' || endsNumber c) after) :
    Decimal.readMantissa? (c :: whole ++ (pointed fraction ++ after)) =
      some (c :: whole ++ fraction, fraction.length, after) := by
  have front := span_number isDigit wholes (fun _ digit => digit) (fun _ _ => rfl)
    (pointed_meets fraction after meets)
  have ends : Meets endsDigits after := by simpa [pointed] using pointed_meets [] after meets
  unfold Decimal.readMantissa?
  rw [front]
  dsimp only
  cases fraction with
  | nil =>
    have nothing : pointed [] ++ after = after := rfl
    rw [nothing]
    split
    · exact absurd (meets '.' rfl) (by decide)
    · simp
  | cons d ds =>
    have back := span_number isDigit fractions (fun _ digit => digit) (fun _ _ => rfl) ends
    change (if (c :: whole).isEmpty && ((d :: ds ++ after).span isDigit).1.isEmpty then none
      else some (c :: whole ++ ((d :: ds ++ after).span isDigit).1, ((d :: ds ++ after).span isDigit).1.length,
        ((d :: ds ++ after).span isDigit).2)) = _
    rw [back]
    rfl

theorem read_exponent_power (raised : Power power k) :
    Decimal.readExponent? power = some k := by
  cases raised with
  | none => rfl
  | up d ds digits small =>
    change (if (d :: ds).isEmpty || !(d :: ds).all isDigit then none
      else some (if false = true then _ else ((Decimal.natOfDigitsUpTo exponentLimit (d :: ds) : Nat) : Int))) = _
    rw [List.all_eq_true.mpr digits, digits_up_to small]
    rfl
  | down d ds digits small =>
    change (if (d :: ds).isEmpty || !(d :: ds).all isDigit then none
      else some (if true = true then -((Decimal.natOfDigitsUpTo exponentLimit (d :: ds) : Nat) : Int) else _)) = _
    rw [List.all_eq_true.mpr digits, digits_up_to small]
    rfl

theorem read_float_decimal {whole : List Char} (wholes : ∀ x ∈ c :: whole, isDigit x) (fractions : ∀ x ∈ fraction, isDigit x)
    (raised : Power power k) :
    Decimal.readFloat? (String.ofList (c :: whole ++ (pointed fraction ++ power))) =
      some (ofDigits false (c :: whole ++ fraction) (k - fraction.length)) := by
  have digit := wholes c List.mem_cons_self
  have number (word : String) (letter : ∀ x ∈ word.toList.head?, isDigit x = false) :
      String.ofList ((c :: whole ++ (pointed fraction ++ power)).map Char.toLower) ≠ word := by
    intro same
    have head := letter c (by rw [← same, String.toList_ofList, List.cons_append, List.map_cons, digit_lower digit]; rfl)
    rw [digit] at head
    cases head
  have meets := power_meets power [] raised (by intro c head; cases head)
  rw [List.append_nil] at meets
  unfold Decimal.readFloat?
  rw [String.toList_ofList, List.cons_append, split_sign_digit _ digit, ← List.cons_append]
  dsimp only
  rw [if_neg, if_neg (number "nan" (by decide)), read_mantissa_pointed wholes fractions meets]
  · change (Decimal.readExponent? power).bind _ = _
    rw [read_exponent_power raised]
    rfl
  · rw [Bool.or_eq_true, decide_eq_true_eq, decide_eq_true_eq, not_or]
    exact ⟨number "inf" (by decide), number "infinity" (by decide)⟩

theorem power_flat (raised : Power power k) : '\n' ∉ power := by
  intro inside
  cases raised with
  | none => cases inside
  | up d ds digits | down d ds digits =>
    simp only [List.mem_cons (b := 'e'), List.mem_cons (l := d :: ds)] at inside
    rcases inside with same | same | inside
    · exact absurd same (by decide)
    · exact absurd same (by decide)
    · exact absurd (digits '\n' inside) (by decide)

theorem numeral_decimal (c : Char) (whole fraction power : List Char) (k : Int) (wholes : ∀ x ∈ c :: whole, isDigit x)
    (fractions : ∀ x ∈ fraction, isDigit x) (raised : Power power k) (marked : fraction ≠ [] ∨ power ≠ []) :
    Numeral (c :: whole ++ (pointed fraction ++ power))
      (.float (ofDigits false (c :: whole ++ fraction) (k - fraction.length))) := by
  refine ⟨⟨c, _, rfl, wholes c List.mem_cons_self⟩, ?_, fun line rest meets => ?_⟩
  · intro inside
    rcases List.mem_append.mp inside with front | back
    · exact absurd (wholes '\n' front) (by decide)
    · rcases List.mem_append.mp back with point | last
      · cases fraction with
        | nil => cases point
        | cons d ds =>
          rcases List.mem_cons.mp point with same | inside
          · exact absurd same (by decide)
          · exact absurd (fractions '\n' inside) (by decide)
      · exact power_flat raised last
  · have after := power_meets power rest raised meets
    have read := read_float_decimal wholes fractions raised
    unfold numberToken
    rw [List.append_assoc, List.append_assoc, span_number _ wholes (fun x digit => by rw [digit]; rfl)
      underscore_continues (pointed_meets fraction _ after)]
    dsimp only
    rw [fraction_digits_pointed fractions after]
    rw [exponent_digits_power raised meets]
    rw [digits_kept wholes]
    have text : c :: whole ++ (if fraction = [] then none else some ('.' :: fraction)).getD [] ++
        (if power = [] then none else some power).getD [] = c :: whole ++ (pointed fraction ++ power) := by
      rw [List.append_assoc]
      congr 2
      · cases fraction <;> rfl
      · cases power <;> rfl
    split
    · rename_i noFraction noPower
      rcases marked with filled | filled
      · rw [if_neg filled] at noFraction
        cases noFraction
      · rw [if_neg filled] at noPower
        cases noPower
    · rw [text, read]

end Flowstep.Script
