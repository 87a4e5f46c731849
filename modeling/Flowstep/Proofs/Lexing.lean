import Mathlib.Data.List.TakeDrop
import Mathlib.Data.List.TakeWhile
import Flowstep.Proofs.DecimalText
import Flowstep.Proofs.Outcome
import Flowstep.Script.Lexer

/-!
How script text is cut into tokens.
-/
namespace Flowstep.Script

-- What holds of all characters of a text is found from the text, not from all characters there are.
instance decidableAllChars {p : Char → Prop} [DecidablePred p] (cs : List Char) : Decidable (∀ c ∈ cs, p c) := List.decidableBAll p cs

instance decidableAnyChar {p : Char → Prop} [DecidablePred p] (c : Option Char) : Decidable (∀ x ∈ c, p x) :=
  Option.decidableForallMem c

variable {c : Char}

theorem starts_continues (starts : startsName c) : continuesName c := by
  unfold startsName at starts
  unfold continuesName Text.isAlphanumeric
  rw [Bool.or_eq_true] at starts ⊢
  rcases starts with underscore | letter
  · exact .inl underscore
  · exact .inr (by rw [letter]; rfl)

theorem digit_bounds (digit : Decimal.isDigit c) : 48 ≤ c.toNat ∧ c.toNat ≤ 57 := by
  simp only [Decimal.isDigit, Bool.and_eq_true, decide_eq_true_eq] at digit
  exact digit

theorem digit_continues (digit : Decimal.isDigit c) : continuesName c := by
  obtain ⟨low, high⟩ := digit_bounds digit
  have numeric : Text.isNumeric c := by
    unfold Text.isNumeric
    generalize c.toNat = n at low high
    have all : ∀ n, n < 58 → 48 ≤ n → Text.inSpans Text.numericSpans n = true := by decide
    exact all n (by omega) low
  rw [continuesName, Text.isAlphanumeric, numeric, Bool.or_true, Bool.or_true]

variable {cs : List Char}

inductive Encloses (quote : Char) : List Char → Prop where
  | last : Encloses quote [quote]
  | escaped (c : Char) {cs : List Char} (rest : Encloses quote cs) : Encloses quote ('\\' :: c :: cs)
  | plain {c : Char} {cs : List Char} (backslash : c ≠ '\\') (other : c ≠ quote) (rest : Encloses quote cs) :
      Encloses quote (c :: cs)

variable {line : Nat} {rest : List Char}

theorem quoted_body_takes {quote : Char} {start last : Nat} {read text : List Char}
    (done : quotedBody quote start read line cs = .ok (text, rest, last)) : ∃ front, cs = front ++ rest ∧ Encloses quote front := by
  fun_induction quotedBody quote start read line cs with
  | case1 | case2 | case13 => cases done
  | case3 _ _ _ ih | case4 _ _ _ ih | case5 _ _ _ ih | case6 _ _ _ ih | case7 _ _ _ ih | case8 _ _ _ ih | case9 _ _ _ ih
  | case10 _ _ _ ih =>
    obtain ⟨front, rfl, encloses⟩ := ih done
    exact ⟨_, rfl, .escaped _ encloses⟩
  | case11 =>
    rename_i ih
    obtain ⟨front, rfl, encloses⟩ := ih done
    exact ⟨_, rfl, .escaped _ encloses⟩
  | case12 =>
    cases done
    exact ⟨_, rfl, .last⟩
  | case14 read line c cs =>
    rename_i other _ ih
    have backslash : c ≠ '\\' := by
      rintro rfl
      cases cs <;> simp_all
    obtain ⟨front, rfl, encloses⟩ := ih done
    exact ⟨_, rfl, .plain backslash other encloses⟩

def joins (c : Char) : Bool := continuesName c || c = '.' || c = '+' || c = '-'

def Cuts (cs rest : List Char) : Prop := ∃ front, cs = front ++ rest ∧ ∀ c ∈ front, joins c

theorem cuts_refl (cs : List Char) : Cuts cs cs := ⟨[], rfl, by simp⟩

theorem cuts_trans {middle : List Char} (first : Cuts cs middle) (second : Cuts middle rest) : Cuts cs rest := by
  obtain ⟨front, rfl, fronts⟩ := first
  obtain ⟨back, rfl, backs⟩ := second
  exact ⟨front ++ back, by rw [List.append_assoc], List.forall_mem_append.mpr ⟨fronts, backs⟩⟩

theorem cuts_cons (here : joins c) (cuts : Cuts cs rest) : Cuts (c :: cs) rest :=
  cuts_trans ⟨[c], rfl, List.forall_mem_singleton.mpr here⟩ cuts

theorem cuts_drop {p : Char → Bool} (fits : ∀ c, p c → joins c) : Cuts cs (cs.dropWhile p) :=
  ⟨_, (List.takeWhile_append_dropWhile).symm, fun c member => fits c (List.mem_takeWhile_imp member)⟩

theorem cuts_digits (cs : List Char) : Cuts cs (cs.span Decimal.isDigit).2 := by
  rw [List.span_eq_takeWhile_dropWhile]
  exact cuts_drop fun c digit => by rw [joins, digit_continues digit]; rfl

theorem cuts_fraction (cs : List Char) : Cuts cs (fractionDigits cs).2 := by
  unfold fractionDigits
  split
  · split
    · exact cuts_refl _
    · exact cuts_cons rfl (cuts_digits _)
  · exact cuts_refl _

theorem cuts_exponent (cs : List Char) : Cuts cs (exponentDigits cs).2 := by
  have signed (c : Char) (rest sign after : List Char) (marks : joins c) (cuts : Cuts rest after) : Cuts (c :: rest)
      (if (after.span Decimal.isDigit).1.isEmpty then ((none : Option (List Char)), c :: rest)
        else (some (c :: (sign ++ (after.span Decimal.isDigit).1)), (after.span Decimal.isDigit).2)).2 := by
    split
    · exact cuts_refl _
    · exact cuts_cons marks (cuts_trans cuts (cuts_digits _))
  unfold exponentDigits
  split
  · rename_i c rest
    split
    · rename_i mark
      have marks : joins c := by
        rcases Bool.or_eq_true_iff.mp mark with same | same <;> rw [of_decide_eq_true same] <;> decide
      dsimp only
      split
      · exact signed c _ _ _ marks (cuts_cons rfl (cuts_refl _))
      · exact signed c _ _ _ marks (cuts_cons rfl (cuts_refl _))
      · exact signed c _ _ _ marks (cuts_refl _)
    · exact cuts_refl _
  · exact cuts_refl _

theorem number_token_cuts {token : Token} (digit : Decimal.isDigit c)
    (done : numberToken line (c :: cs) = .ok (token, rest)) : Cuts cs rest := by
  have digits : Cuts cs ((c :: cs).span fun c => Decimal.isDigit c || c = '_').2 := by
    rw [List.span_eq_takeWhile_dropWhile, List.dropWhile_cons_of_pos (by rw [digit]; rfl)]
    refine cuts_drop fun c whole => ?_
    rcases Bool.or_eq_true_iff.mp whole with digit | same
    · rw [joins, digit_continues digit]
      rfl
    · rw [of_decide_eq_true same]
      decide
  have whole := cuts_trans (cuts_trans digits (cuts_fraction _)) (cuts_exponent _)
  unfold numberToken at done
  dsimp only at done
  split at done
  · split at done
    · cases done
      exact whole
    · cases done
  · split at done
    · cases done
      exact whole
    · cases done

inductive Takes : List Char → List Char → Prop where
  | blank {c : Char} (listed : c ∈ [' ', '\t', '\r', '\n']) (rest : List Char) : Takes [c] rest
  | joint (rest : List Char) : Takes ['\\', '\n'] rest
  | comment {c : Char} (mark : c = '#' ∨ c = '\r') (cs rest : List Char) : Takes (c :: cs) rest
  | quoted {quote : Char} {cs : List Char} (mark : quote = '\'' ∨ quote = '"') (encloses : Encloses quote cs)
      (rest : List Char) : Takes (quote :: cs) rest
  | number {c : Char} {cs rest : List Char} {line : Nat} {token : Token} (digit : Decimal.isDigit c) (all : ∀ d ∈ cs, joins d)
      (read : numberToken line (c :: cs ++ rest) = .ok (token, rest)) : Takes (c :: cs) rest
  | name {c : Char} {cs : List Char} (starts : startsName c) (all : ∀ d ∈ cs, continuesName d) (rest : List Char) :
      Takes (c :: cs) rest
  | operator {op : String} (listed : op ∈ operators) (rest : List Char) : Takes op.toList rest

theorem takes_filled {front : List Char} (takes : Takes front rest) : front ≠ [] := by
  cases takes with
  | operator listed =>
    have all : ∀ op ∈ operators, op.toList ≠ [] := by decide
    exact all _ listed
  | _ => simp

namespace Lexer

variable {l next : Lexer}

theorem operator_step_takes (done : l.operatorStep c = .ok next) : ∃ front, l.rest = front ++ next.rest ∧ Takes front next.rest := by
  unfold operatorStep at done
  split at done
  · cases done
  · rename_i op found
    have starts : op.toList.isPrefixOf l.rest := List.find?_some (p := fun op : String => op.toList.isPrefixOf l.rest) found
    obtain ⟨rest, whole⟩ := List.isPrefixOf_iff_prefix.mp starts
    have kept : next.rest = l.rest.drop op.length := by
      split at done
      · cases done
        rfl
      · split at done
        · split at done
          · cases done
          · cases done
            rfl
        · cases done
          rfl
    rw [← whole, ← String.length_toList, List.drop_left] at kept
    exact ⟨op.toList, by rw [kept, whole], .operator (List.mem_of_find?_eq_some found) _⟩

theorem end_line_rest (l : Lexer) : l.endLine.rest = l.rest := by
  unfold endLine
  split
  · rfl
  · split <;> rfl

theorem token_step_takes (more : l.rest ≠ []) (done : l.tokenStep = .ok next) :
    ∃ front, l.rest = front ++ next.rest ∧ Takes front next.rest := by
  unfold tokenStep at done
  split at done
  · rename_i empty
    exact absurd empty more
  · rename_i rest here
    have kept : next.rest = rest := by
      cases done
      split
      · exact end_line_rest _
      · rfl
    exact ⟨['\n'], by rw [here, kept]; rfl, .blank (by simp) _⟩
  · rename_i rest here
    cases done
    exact ⟨_, here, .joint _⟩
  · rename_i c rest _ _ here
    split at done
    · rename_i blank
      cases done
      refine ⟨[c], here, .blank ?_ _⟩
      simp only [Bool.or_eq_true, decide_eq_true_eq] at blank
      rcases blank with (rfl | rfl) | rfl <;> simp
    · split at done
      · rename_i hash
        cases done
        refine ⟨c :: rest.takeWhile (· ≠ '\n'), ?_, .comment (.inl hash) _ _⟩
        rw [here, List.cons_append, List.takeWhile_append_dropWhile]
      · split at done
        · rename_i mark
          obtain ⟨⟨text, after, last⟩, body, done⟩ := bind_ok done
          cases done
          obtain ⟨front, rfl, encloses⟩ := quoted_body_takes body
          exact ⟨c :: front, here, .quoted (by simpa using mark) encloses _⟩
        · split at done
          · rename_i digit
            obtain ⟨⟨token, after⟩, number, done⟩ := bind_ok done
            cases done
            rw [here] at number ⊢
            obtain ⟨front, rfl, all⟩ := number_token_cuts digit number
            exact ⟨c :: front, rfl, .number digit all number⟩
          · split at done
            · rename_i starts
              cases done
              rw [here]
              change ∃ front, c :: rest = front ++ ((c :: rest).span continuesName).2 ∧ Takes front ((c :: rest).span continuesName).2
              rw [List.span_eq_takeWhile_dropWhile, List.dropWhile_cons_of_pos (starts_continues starts)]
              exact ⟨c :: rest.takeWhile continuesName, by rw [List.cons_append, List.takeWhile_append_dropWhile],
                .name starts (fun d member => List.mem_takeWhile_imp member) _⟩
            · exact operator_step_takes done

theorem measure_blanks (width : Nat) (cs : List Char) :
    ∃ front, cs = front ++ (measure width cs).2 ∧ ∀ c ∈ front, c = ' ' ∨ c = '\t' := by
  fun_induction measure width cs with
  | case1 width rest ih | case2 width rest ih =>
    obtain ⟨front, split, blanks⟩ := ih
    exact ⟨_ :: front, by rw [List.cons_append, ← split], List.forall_mem_cons.mpr ⟨by simp, blanks⟩⟩
  | case3 => exact ⟨[], rfl, by simp⟩

theorem lay_out_rest {width : Nat} (done : l.layOut width = .ok next) : next.rest = l.rest := by
  unfold layOut at done
  split at done
  · cases done
    rfl
  · dsimp only at done
    split at done
    · cases done
      rfl
    · cases done

theorem skip_line_takes (blank : isBlankLine l.rest) (more : l.rest ≠ []) :
    ∃ front, l.rest = front ++ l.skipLine.rest ∧ Takes front l.skipLine.rest := by
  obtain ⟨c, cs, here⟩ := List.exists_cons_of_ne_nil more
  unfold skipLine
  rw [here] at blank ⊢
  simp only [isBlankLine, Bool.or_eq_true, decide_eq_true_eq] at blank
  by_cases feed : c = '\n'
  · subst feed
    exact ⟨['\n'], rfl, .blank (by simp) _⟩
  · have split := List.takeWhile_append_dropWhile (p := fun c => decide (c ≠ '\n')) (l := cs)
    have mark : c = '#' ∨ c = '\r' := by
      rcases blank with (same | hash) | cr
      · exact absurd same feed
      · exact .inl hash
      · exact .inr cr
    rw [List.dropWhile_cons_of_pos (by simpa using feed)]
    split
    · exact ⟨c :: cs, by simp, .comment mark _ _⟩
    · rename_i last rest kept
      rw [kept] at split
      refine ⟨c :: ((cs.takeWhile fun c => decide (c ≠ '\n')) ++ [last]), ?_, .comment mark _ _⟩
      rw [List.cons_append, List.append_assoc, List.singleton_append, split]

-- A step passes over blanks at the start of a line. It takes something after them unless the text ends there.
theorem step_takes (more : l.rest ≠ []) (done : l.step = .ok next) : ∃ blanks, (∀ c ∈ blanks, c = ' ' ∨ c = '\t') ∧
    (l.rest = blanks ∧ next.rest = [] ∨ ∃ front, l.rest = blanks ++ (front ++ next.rest) ∧ Takes front next.rest) := by
  unfold step at done
  split at done
  · obtain ⟨blanks, split, all⟩ := measure_blanks 0 l.rest
    refine ⟨blanks, all, ?_⟩
    dsimp only at done
    split at done
    · rename_i blank
      cases done
      by_cases empty : (measure 0 l.rest).2 = []
      · refine .inl ⟨by rwa [empty, List.append_nil] at split, ?_⟩
        simp [skipLine, empty]
      · obtain ⟨front, here, takes⟩ := skip_line_takes (l := { l with rest := (measure 0 l.rest).2 }) blank empty
        exact .inr ⟨front, by rw [← here, ← split], takes⟩
    · rename_i filled
      obtain ⟨laid, layout, done⟩ := bind_ok done
      have same : laid.rest = (measure 0 l.rest).2 := lay_out_rest layout
      have present : (measure 0 l.rest).2 ≠ [] := by
        intro empty
        rw [empty] at filled
        exact filled rfl
      obtain ⟨front, here, takes⟩ := token_step_takes (by rwa [← same] at present) done
      refine .inr ⟨front, ?_, takes⟩
      rw [← here]
      exact same ▸ split
  · obtain ⟨front, here, takes⟩ := token_step_takes more done
    exact ⟨[], by simp, .inr ⟨front, here, takes⟩⟩

theorem step_shortens {l next : Lexer} (more : l.rest ≠ []) (done : l.step = .ok next) :
    next.rest.length < l.rest.length := by
  obtain ⟨blanks, _, ⟨_, empty⟩ | ⟨front, here, takes⟩⟩ := step_takes more done
  · rw [empty]
    exact List.length_pos_iff.mpr more
  · have filled := List.length_pos_iff.mpr (takes_filled takes)
    rw [here, List.length_append, List.length_append]
    omega

def lex (l : Lexer) : Except Error Lexer := l.run l.rest.length

theorem run_stable (fuel other : Nat) (l : Lexer) (enough : l.rest.length ≤ fuel)
    (others : l.rest.length ≤ other) : l.run fuel = l.run other := by
  have done (n : Nat) (l : Lexer) (empty : l.rest.isEmpty) : l.run n = .ok l := by
    cases n with
    | zero => rfl
    | succ n => rw [run, if_pos empty]
  induction fuel generalizing other l with
  | zero =>
    have empty : l.rest.isEmpty := by
      rw [List.isEmpty_iff, ← List.length_eq_zero_iff]
      exact Nat.le_zero.mp enough
    rw [done 0 l empty, done other l empty]
  | succ fuel ih =>
    by_cases empty : l.rest.isEmpty
    · rw [done _ l empty, done other l empty]
    · have present : l.rest ≠ [] := by rwa [List.isEmpty_iff] at empty
      cases other with
      | zero => exact absurd (List.length_eq_zero_iff.mp (Nat.le_zero.mp others)) present
      | succ other =>
        rw [run, run, if_neg empty, if_neg empty]
        cases stepped : l.step with
        | error e => rfl
        | ok next =>
          have shorter := step_shortens present stepped
          exact ih other next (by omega) (by omega)

theorem lex_step {l next : Lexer} (more : l.rest ≠ []) (stepped : l.step = .ok next) : l.lex = next.lex := by
  have shorter := step_shortens more stepped
  have filled : ¬l.rest.isEmpty := by rwa [List.isEmpty_iff]
  obtain ⟨count, length⟩ : ∃ count, l.rest.length = count + 1 := ⟨l.rest.length - 1, by omega⟩
  rw [lex, length, run, if_neg filled, stepped]
  exact run_stable count next.rest.length next (by omega) (Nat.le_refl _)

theorem lex_fails {e : Error} (more : l.rest ≠ []) (failed : l.step = .error e) : l.lex = .error e := by
  have filled : ¬l.rest.isEmpty := by rwa [List.isEmpty_iff]
  obtain ⟨count, length⟩ : ∃ count, l.rest.length = count + 1 :=
    ⟨l.rest.length - 1, by have := List.length_pos_iff.mpr more; omega⟩
  rw [lex, length, run, if_neg filled, failed]
  rfl

theorem same_step {l k : Lexer} (more : l.rest ≠ []) (others : k.rest ≠ []) (same : l.step = k.step) : l.lex = k.lex := by
  cases stepped : k.step with
  | error e => rw [lex_fails more (same.trans stepped), lex_fails others stepped]
  | ok next => rw [lex_step more (same.trans stepped), lex_step others stepped]

theorem lex_done (empty : l.rest = []) : l.lex = .ok l := by
  rw [lex, empty]
  rfl

end Lexer

end Flowstep.Script
