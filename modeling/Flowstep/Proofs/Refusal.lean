import Flowstep.Proofs.Wording

/-!
Texts that are refused wherever they stand, because they hold a number that does not fit a word.
-/
namespace Flowstep.Decimal

theorem read_int_large {c : Char} {cs : List Char} (digits : ∀ d ∈ c :: cs, isDigit d)
    (large : 9223372036854775808 ≤ natOfDigits (c :: cs)) : readInt64? (String.ofList (c :: cs)) = none := by
  have counted := Script.counts_up_to UInt64.size (c :: cs)
  have wide : 9223372036854775808 ≤ UInt64.size := by decide
  unfold readInt64?
  rw [String.toList_ofList, Script.split_sign_digit cs (digits c List.mem_cons_self)]
  dsimp only
  rw [List.isEmpty_cons, List.all_eq_true.mpr digits, if_neg (by decide), if_neg (by decide), Word.ofInt?, if_neg]
  rintro ⟨_, most⟩
  rw [Word.greatest] at most
  omega

end Flowstep.Decimal

namespace Flowstep.Script

variable {c : Char} {cs rest : List Char}

theorem number_refused (digits : ∀ d ∈ c :: cs, Decimal.isDigit d) (large : 9223372036854775808 ≤ Decimal.natOfDigits (c :: cs))
    (meets : Meets endsNumber rest) (line : Nat) : ∃ e, numberToken line (c :: cs ++ rest) = .error e := by
  have ends : Meets (fun c => c = '.' || endsNumber c) rest :=
    fun d head => Bool.or_eq_true_iff.mpr (Or.inr (meets d head))
  unfold numberToken
  rw [span_digits digits ends]
  dsimp only
  rw [fraction_digits_none meets]
  rw [exponent_digits_none meets]
  rw [digits_kept digits, Decimal.read_int_large digits large]
  exact ⟨_, rfl⟩

-- Where a place in the code stands: outside of quoted texts or in one. After a comment, a carriage
-- return or a line joint it is not known.
inductive Quoting where
  | code
  | text (quote : Char)
  | escape (quote : Char)
  | lost
deriving DecidableEq

namespace Quoting

def next : Quoting → Char → Quoting
  | code, c => if c ∈ ['"', '\''] then text c else if c ∈ ['#', '\r', '\\'] then lost else code
  | text quote, c => if c = '\\' then escape quote else if c = quote then code else text quote
  | escape quote, _ => text quote
  | lost, _ => lost

theorem lost_stays (cs : List Char) : cs.foldl next lost = lost := by
  induction cs with
  | nil => rfl
  | cons c rest ih => exact ih

end Quoting

def Closed (cs : List Char) : Prop := cs.foldl Quoting.next .code = .code

instance : DecidablePred Closed := fun cs => inferInstanceAs (Decidable (cs.foldl Quoting.next .code = .code))

variable {back : List Char}

theorem closed_after {front : List Char} (closed : Closed front) : Closed (front ++ back) ↔ Closed back := by
  rw [Closed, Closed, List.foldl_append, show front.foldl _ _ = _ from closed]

theorem closed_of_chars (plain : ∀ c ∈ cs, c ∉ ['"', '\'', '#', '\r', '\\']) : Closed cs := by
  induction cs with
  | nil => rfl
  | cons c rest ih =>
    rw [List.forall_mem_cons] at plain
    have here : Closed [c] := by
      have other := plain.1
      simp only [List.mem_cons, not_or] at other
      simp [Closed, Quoting.next, other]
    exact (closed_after here).mpr (ih plain.2)

theorem closed_joins (all : ∀ c ∈ cs, joins c) : Closed cs := by
  refine closed_of_chars fun c member listed => ?_
  have never : ∀ c ∈ ['"', '\'', '#', '\r', '\\'], joins c = false := by decide
  exact absurd (all c member) (by rw [never c listed]; decide)

def separators : List Char := [' ', '(', '[', '\x7b', '=', '\n']

def isSeparator (c : Char) : Bool := separators.contains c

def Ready (cs : List Char) : Prop := (cs.reverse.dropWhile (· = '-')).head?.all isSeparator

theorem ready_rest {front : List Char} (ready : Ready (front ++ back)) : Ready back := by
  unfold Ready at *
  rw [List.reverse_append, List.dropWhile_append] at ready
  cases signs : back.reverse.dropWhile (· = '-') with
  | nil => rfl
  | cons c rest =>
    rw [signs] at ready
    exact ready

theorem ready_after {front : List Char} (ends : front.getLast?.all isSeparator) (ready : Ready back) :
    Ready (front ++ back) := by
  unfold Ready at *
  rw [List.reverse_append, List.dropWhile_append]
  cases signs : back.reverse.dropWhile (· = '-') with
  | nil =>
    rw [← List.head?_reverse] at ends
    generalize front.reverse = signed at ends
    cases signed with
    | nil => rfl
    | cons c rest =>
      rw [List.head?_cons] at ends
      have other : c ≠ '-' := by
        rintro rfl
        exact absurd ends (by decide)
      simpa [other] using ends
  | cons c rest =>
    rw [signs] at ready
    exact ready

theorem not_ready_joins (all : ∀ d ∈ c :: cs, joins d) (continues : continuesName c) : ¬Ready (c :: cs) := by
  intro ready
  have apart (d : Char) (joined : joins d) : isSeparator d = false := by
    by_contra separates
    rw [Bool.not_eq_false, isSeparator, List.contains_iff_mem] at separates
    have never : ∀ d ∈ separators, joins d = false := by decide
    rw [never d separates] at joined
    cases joined
  unfold Ready at ready
  cases signs : (c :: cs).reverse.dropWhile (· = '-') with
  | nil =>
    have sign := List.dropWhile_eq_nil_iff.mp signs c (by simp)
    rw [of_decide_eq_true sign] at continues
    exact absurd continues (by decide)
  | cons d rest =>
    have member : d ∈ c :: cs := List.mem_reverse.mp ((List.dropWhile_suffix _).subset (signs ▸ List.mem_cons_self))
    rw [signs, List.head?_cons, Option.all_some, apart d (all d member)] at ready
    cases ready

section Places

variable {front before after : List Char} {d : Char}

theorem closed_within (plain : Closed front) (split : front ++ rest = before ++ d :: after) (closed : Closed before)
    (outside : ∀ more, front ≠ before ++ d :: more) :
    ∃ middle, before = front ++ middle ∧ rest = middle ++ d :: after ∧ Closed middle := by
  rcases List.append_eq_append_iff.mp split with ⟨middle, rfl, same⟩ | ⟨middle, same, back⟩
  · exact ⟨middle, rfl, same, (closed_after plain).mp closed⟩
  · cases middle with
    | nil => exact ⟨[], by simpa using same.symm, back.symm, rfl⟩
    | cons e more =>
      cases back
      exact absurd same (outside more)

theorem encloses_closes {quote : Char} (mark : quote ≠ '\\') (encloses : Encloses quote cs) :
    cs.foldl Quoting.next (.text quote) = .code := by
  induction encloses with
  | last => simp [Quoting.next, mark]
  | escaped c _ ih => exact ih
  | plain backslash other _ ih => simpa [Quoting.next, backslash, other] using ih

theorem encloses_open {quote : Char} {whole : List Char} (encloses : Encloses quote whole) (split : whole = before ++ d :: after) :
    before.foldl Quoting.next (.text quote) ≠ .code := by
  induction encloses generalizing before with
  | last =>
    cases before with
    | nil => exact nofun
    | cons c before => simp at split
  | escaped c _ ih =>
    rcases before with _ | ⟨_, _ | ⟨_, before⟩⟩
    · exact nofun
    · cases split
      exact nofun
    · cases split
      have opened := ih (Eq.refl (before ++ d :: after))
      exact opened
  | plain backslash other _ ih =>
    cases before with
    | nil => exact nofun
    | cons c before =>
      cases split
      simpa [Quoting.next, backslash, other] using ih rfl

theorem takes_within (takes : Takes front rest) (digit : Decimal.isDigit d) (split : front ++ rest = before ++ d :: after)
    (closed : Closed before) (ready : Ready before) (filled : before ≠ []) :
    ∃ middle, before = front ++ middle ∧ rest = middle ++ d :: after ∧ Closed middle := by
  obtain ⟨c, before, rfl⟩ := List.exists_cons_of_ne_nil filled
  have first (b : Char) (cs : List Char) (here : front = b :: cs) : c = b := by
    rw [here] at split
    exact (List.cons.inj split).1.symm
  have known (marks : c ∈ ['#', '\r', '\\']) : False := by
    have never : ∀ c ∈ ['#', '\r', '\\'], Quoting.next .code c = .lost := by decide
    rw [Closed, List.foldl_cons, never c marks, Quoting.lost_stays] at closed
    cases closed
  have word (cs : List Char) (continues : continuesName c) (all : ∀ d ∈ cs, joins d) (here : front = c :: cs) :
      ∃ middle, c :: before = front ++ middle ∧ rest = middle ++ d :: after ∧ Closed middle := by
    subst here
    have starts : joins c := by
      rw [joins, continues]
      rfl
    refine closed_within (closed_joins (List.forall_mem_cons.mpr ⟨starts, all⟩)) split closed fun more same => ?_
    cases same
    exact not_ready_joins (List.forall_mem_cons.mpr ⟨starts, fun d member => all d (List.mem_append_left _ member)⟩) continues ready
  cases takes with
  | blank listed =>
    obtain rfl := first _ _ rfl
    refine closed_within ?_ split closed fun more same => by simp at same
    by_cases cr : c = '\r'
    · exact (known (by simp [cr])).elim
    · have all : ∀ c ∈ [' ', '\t', '\r', '\n'], c ≠ '\r' → Closed [c] := by decide
      exact all _ listed cr
  | joint =>
    obtain rfl := first _ _ rfl
    exact (known (by simp)).elim
  | comment mark =>
    obtain rfl := first _ _ rfl
    exact (known (by rcases mark with rfl | rfl <;> simp)).elim
  | quoted mark encloses =>
    obtain rfl := first _ _ rfl
    have opens : Quoting.next .code c = .text c := by rcases mark with rfl | rfl <;> rfl
    have other : c ≠ '\\' := by rcases mark with rfl | rfl <;> decide
    refine closed_within ?_ split closed fun more same => ?_
    · rw [Closed, List.foldl_cons, opens, encloses_closes other encloses]
    · cases same
      rw [Closed, List.foldl_cons, opens] at closed
      exact encloses_open encloses rfl closed
  | number starts all _ =>
    obtain rfl := first _ _ rfl
    exact word _ (digit_continues starts) all rfl
  | name starts all =>
    obtain rfl := first _ _ rfl
    exact word _ (starts_continues starts) (fun d member => by rw [joins, all d member]; rfl) rfl
  | operator listed =>
    have plain : ∀ op ∈ operators, Closed op.toList ∧ ∀ d ∈ op.toList, Decimal.isDigit d = false := by decide
    refine closed_within (plain _ listed).1 split closed fun more same => ?_
    have never := (plain _ listed).2 d (by rw [same]; simp)
    rw [digit] at never
    cases never

theorem takes_digit (takes : Takes front rest) (digit : Decimal.isDigit d) (split : front ++ rest = d :: after) :
    ∃ line token, numberToken line (d :: after) = .ok (token, rest) := by
  have never {cs : List Char} (other : Decimal.isDigit d = false) : ∃ line token, numberToken line cs = .ok (token, rest) := by
    rw [digit] at other
    cases other
  cases takes with
  | blank listed =>
    cases split
    have all : ∀ c ∈ [' ', '\t', '\r', '\n'], Decimal.isDigit c = false := by decide
    exact never (all d listed)
  | joint =>
    cases split
    exact never rfl
  | comment mark | quoted mark =>
    cases split
    exact never (by rcases mark with rfl | rfl <;> rfl)
  | number _ _ read => exact ⟨_, _, split ▸ read⟩
  | name starts =>
    cases split
    exact never (start_not_digit starts)
  | operator listed =>
    have plain : ∀ op ∈ operators, op.toList ≠ [] ∧ ∀ d ∈ op.toList, Decimal.isDigit d = false := by decide
    obtain ⟨c, cs, here⟩ := List.exists_cons_of_ne_nil (plain _ listed).1
    rw [here] at split
    cases split
    exact never ((plain _ listed).2 d (by simp [here]))

end Places

def Overflows (text : List Char) : Prop :=
  ∃ before c digits after, text = before ++ c :: (digits ++ after) ∧ Closed before ∧ Ready before ∧
    (∀ d ∈ c :: digits, Decimal.isDigit d) ∧ 2 ^ 63 ≤ Decimal.natOfDigits (c :: digits) ∧ Meets endsNumber after

theorem overflows_after {front text : List Char} (closed : Closed front) (ends : front.getLast?.all isSeparator)
    (overflows : Overflows text) : Overflows (front ++ text) := by
  obtain ⟨before, c, digits, after, rfl, inner, ready, rest⟩ := overflows
  exact ⟨front ++ before, c, digits, after, by rw [List.append_assoc], (closed_after closed).mpr inner, ready_after ends ready, rest⟩

theorem overflows_before {text : List Char} (ends : Meets endsNumber back) (overflows : Overflows text) :
    Overflows (text ++ back) := by
  obtain ⟨before, c, digits, after, rfl, closed, ready, all, large, meets⟩ := overflows
  refine ⟨before, c, digits, after ++ back, by simp, closed, ready, all, large, ?_⟩
  cases after with
  | nil => exact ends
  | cons d after => exact meets

namespace Lexer

-- Step by step the lexer comes to the number, or it fails before.
theorem lex_overflows {l : Lexer} (overflows : Overflows l.rest) : ∃ e, l.lex = .error e := by
  obtain ⟨before, c, digits, after, here, closed, ready, all, large, meets⟩ := overflows
  have digit := all c List.mem_cons_self
  induction size : before.length using Nat.strongRecOn generalizing l before with
  | ind n ih =>
    subst size
    have more : l.rest ≠ [] := by rw [here]; simp
    cases stepped : l.step with
    | error e => exact ⟨e, lex_fails more stepped⟩
    | ok next =>
      rw [lex_step more stepped]
      obtain ⟨blanks, spaces, taken⟩ := step_takes more stepped
      have absent : c ∉ blanks := by
        intro member
        rcases spaces c member with rfl | rfl <;> cases digit
      rcases taken with ⟨ends, _⟩ | ⟨front, whole, takes⟩
      · exact absurd (by rw [← ends, here]; simp) absent
      · have plain : Closed blanks := closed_of_chars fun d member => by rcases spaces d member with rfl | rfl <;> decide
        obtain ⟨middle, rfl, split, inner⟩ := closed_within plain (whole.symm.trans here) closed
          fun more same => absent (by rw [same]; simp)
        have readied := ready_rest ready
        by_cases empty : middle = []
        · subst empty
          obtain ⟨line, token, read⟩ := takes_digit takes digit split
          obtain ⟨e, refused⟩ := number_refused all large meets line
          rw [List.cons_append, read] at refused
          cases refused
        · obtain ⟨last, rfl, kept, closed⟩ := takes_within takes digit split inner readied empty
          have shorter := List.length_pos_iff.mpr (takes_filled takes)
          refine ih last.length ?_ last kept closed (ready_rest readied) rfl
          simp only [List.length_append]
          omega

end Lexer

theorem parse_overflows {text : String} (overflows : Overflows text.toList) : ∃ e, Program.parse text = .error e := by
  obtain ⟨e, failed⟩ := Lexer.lex_overflows (l := Lexer.ofText text) overflows
  have lexed : (Lexer.ofText text).run text.length = .error e := by
    exact failed
  refine ⟨e, ?_⟩
  rw [Program.parse, tokenize, lexed]
  rfl

end Flowstep.Script
