import Flowstep.Code.Literal
import Flowstep.Proofs.Lexing
import Mathlib.Algebra.Group.Int.Defs
import Mathlib.Algebra.Group.Nat.Defs

/-!
Pieces of script text and the tokens they give wherever they stand inside a line.
-/
namespace Flowstep.Script

def shift (line : Nat) (ts : List Located) : List Located := ts.map fun t => ⟨t.token, line + t.line⟩

variable (line : Nat) (ts : List Located) (l : Lexer) (s : String) (n : Nat)

theorem shift_append (front back : List Located) :
    shift line (front ++ back) = shift line front ++ shift line back := List.map_append

theorem shift_shift (first second : Nat) (ts : List Located) :
    shift first (shift second ts) = shift (first + second) ts := by
  simp [shift, Nat.add_assoc]

theorem shift_tokens : (shift line ts).map (·.token) = ts.map (·.token) := by
  simp [shift]

theorem shift_length : (shift line ts).length = ts.length :=
  List.length_map _

namespace Lexer

def inside (rest : List Char) (line depth : Nat) (indents : List Nat) (read : List Located) : Lexer :=
  { rest, line, depth, indents, read, atLineStart := false }

end Lexer

def Meets (stops : Char → Bool) (rest : List Char) : Prop := ∀ c ∈ rest.head?, stops c

-- Wherever `cs` stands in a line, with at least `floor` brackets open and before a fitting character,
-- it is read as the tokens `ts`.
def Scans (floor : Nat) (stops : Char → Bool) (cs : List Char) (ts : List Located) : Prop :=
  ∀ (rest : List Char) (line depth : Nat) (indents : List Nat) (read : List Located),
    floor ≤ depth → Meets stops rest →
      (Lexer.inside (cs ++ rest) line depth indents read).lex =
        (Lexer.inside rest (line + cs.count '\n') depth indents ((shift line ts).reverse ++ read)).lex

def endsName (c : Char) : Bool := !continuesName c

def endsNumber (c : Char) : Bool := !continuesName c && c ≠ '.'

def endsSymbol (c : Char) : Bool := c ≠ '='

def endsToken (c : Char) : Bool := !continuesName c && c ≠ '.' && c ≠ '='

def anyChar (_ : Char) : Bool := true

theorem ends_token_name (c : Char) (ends : endsToken c) : endsName c := by
  simp only [endsToken, Bool.and_eq_true] at ends
  exact ends.1.1

theorem ends_token_number (c : Char) (ends : endsToken c) : endsNumber c := by
  simp only [endsToken, Bool.and_eq_true] at ends
  simp only [endsNumber, Bool.and_eq_true]
  exact ends.1

variable {floor : Nat} {stops : Char → Bool} {cs : List Char} {ts : List Located}

theorem scans_weaken {fewer : Char → Bool} (scans : Scans floor stops cs ts) (fits : ∀ c, fewer c → stops c) :
    Scans floor fewer cs ts := by
  intro rest line depth indents read deep meets
  exact scans rest line depth indents read deep fun c head => fits c (meets c head)

theorem scans_raise {low high : Nat} (scans : Scans low stops cs ts) (higher : low ≤ high) : Scans high stops cs ts := by
  intro rest line depth indents read deep meets
  exact scans rest line depth indents read (Nat.le_trans higher deep) meets

variable {c : Char}

theorem scans_append {last : Char → Bool} {front : List Char} {back : List Char} {us : List Located}
    (first : Scans floor stops front ts) (second : Scans floor last (c :: back) us) (fits : stops c) :
    Scans floor last (front ++ c :: back) (ts ++ shift (front.count '\n') us) := by
  intro rest line depth indents read deep meets
  have before : Meets stops ((c :: back) ++ rest) := by
    intro d head
    cases head
    exact fits
  rw [List.append_assoc, first _ line depth indents read deep before,
    second rest _ depth indents _ deep meets, List.count_append, shift_append, shift_shift, List.reverse_append,
    List.append_assoc, Nat.add_assoc]

theorem scans_of_step {token : Token} (present : cs ≠ []) (flat : cs.count '\n' = 0)
    (stepped : ∀ (rest : List Char) (line depth : Nat) (indents : List Nat) (read : List Located),
      Meets stops rest → (Lexer.inside (cs ++ rest) line depth indents read).step =
        .ok (Lexer.inside rest line depth indents (⟨token, line⟩ :: read))) :
    Scans 0 stops cs [⟨token, 0⟩] := by
  intro rest line depth indents read _ meets
  rw [flat, Lexer.lex_step (by simp [Lexer.inside, present]) (stepped rest line depth indents read meets)]
  rfl

theorem scans_blank : Scans 0 anyChar [' '] [] := by
  intro rest line depth indents read _ _
  exact Lexer.lex_step (by simp [Lexer.inside]) rfl

theorem scans_comma : Scans 0 anyChar [','] [⟨.op ",", 0⟩] :=
  scans_of_step (by decide) (by decide) fun _ _ _ _ _ _ => rfl

theorem scans_colon : Scans 0 anyChar [':'] [⟨.op ":", 0⟩] :=
  scans_of_step (by decide) (by decide) fun _ _ _ _ _ _ => rfl

theorem scans_dot : Scans 0 anyChar ['.'] [⟨.op ".", 0⟩] :=
  scans_of_step (by decide) (by decide) fun _ _ _ _ _ _ => rfl

theorem scans_double (text : String) (listed : text ∈ ["-=", "==", "!=", "<=", ">="]) :
    Scans 0 anyChar text.toList [⟨.op text, 0⟩] := by
  simp only [List.mem_cons, List.not_mem_nil, or_false] at listed
  rcases listed with rfl | rfl | rfl | rfl | rfl <;> exact scans_of_step (by decide) (by decide) fun _ _ _ _ _ _ => rfl

theorem scans_symbol (c : Char) (listed : c ∈ ['=', '+', '-', '*', '/', '%', '<', '>']) :
    Scans 0 endsSymbol [c] [⟨.op (String.singleton c), 0⟩] := by
  simp only [List.mem_cons, List.not_mem_nil, or_false] at listed
  refine scans_of_step (by simp) (by rcases listed with rfl | rfl | rfl | rfl | rfl | rfl | rfl | rfl <;> decide) ?_
  intro rest line depth indents read meets
  have found : Lexer.operatorAt? (c :: rest) = some (String.singleton c) := by
    cases rest with
    | nil => rcases listed with rfl | rfl | rfl | rfl | rfl | rfl | rfl | rfl <;> rfl
    | cons d rest =>
      have other : d ≠ '=' := by simpa [endsSymbol] using meets d rfl
      rcases listed with rfl | rfl | rfl | rfl | rfl | rfl | rfl | rfl <;>
        simp [Lexer.operatorAt?, operators, Ne.symm other]
  have operator : (Lexer.inside ([c] ++ rest) line depth indents read).step =
      (Lexer.inside ([c] ++ rest) line depth indents read).operatorStep c := by
    rcases listed with rfl | rfl | rfl | rfl | rfl | rfl | rfl | rfl <;> rfl
  have here : Lexer.operatorAt? (Lexer.inside ([c] ++ rest) line depth indents read).rest = some (String.singleton c) := found
  rw [operator, Lexer.operatorStep, here]
  rcases listed with rfl | rfl | rfl | rfl | rfl | rfl | rfl | rfl <;> rfl

def brackets : List (Char × Char) := [('(', ')'), ('[', ']'), ('\x7b', '\x7d')]

theorem brackets_step {pair : Char × Char} (listed : pair ∈ brackets) (rest : List Char) (line depth : Nat)
    (indents : List Nat) (read : List Located) :
    (Lexer.inside (pair.1 :: rest) line depth indents read).step =
        .ok (Lexer.inside rest line (depth + 1) indents (⟨.op (String.singleton pair.1), line⟩ :: read)) ∧
      (Lexer.inside (pair.2 :: rest) line (depth + 1) indents read).step =
        .ok (Lexer.inside rest line depth indents (⟨.op (String.singleton pair.2), line⟩ :: read)) := by
  have split : pair = ('(', ')') ∨ pair = ('[', ']') ∨ pair = ('\x7b', '\x7d') := by simpa [brackets] using listed
  rcases split with rfl | rfl | rfl <;> exact ⟨rfl, rfl⟩

theorem scans_bracketed {pair : Char × Char} (listed : pair ∈ brackets) (inner : Scans (floor + 1) stops cs ts)
    (fits : stops pair.2) :
    Scans floor anyChar (pair.1 :: cs ++ [pair.2])
      (⟨.op (String.singleton pair.1), 0⟩ :: ts ++ [⟨.op (String.singleton pair.2), cs.count '\n'⟩]) := by
  intro rest line depth indents read deep _
  have flat : pair.1 ≠ '\n' ∧ pair.2 ≠ '\n' := by
    have all : ∀ pair ∈ brackets, pair.1 ≠ '\n' ∧ pair.2 ≠ '\n' := by decide
    exact all pair listed
  have before : Meets stops (pair.2 :: rest) := by
    intro d head
    cases head
    exact fits
  have opened := (brackets_step listed (cs ++ pair.2 :: rest) line depth indents read).1
  have closed := (brackets_step listed rest (line + cs.count '\n') depth indents
    ((shift line ts).reverse ++ ⟨.op (String.singleton pair.1), line⟩ :: read)).2
  have counted : (pair.1 :: cs ++ [pair.2]).count '\n' = cs.count '\n' := by
    simp [flat.1, flat.2]
  have joined : pair.1 :: cs ++ [pair.2] ++ rest = pair.1 :: (cs ++ pair.2 :: rest) := by simp
  rw [counted, joined, Lexer.lex_step (by simp [Lexer.inside]) opened,
    inner _ line (depth + 1) indents _ (Nat.succ_le_succ deep) before,
    Lexer.lex_step (by simp [Lexer.inside]) closed]
  simp [shift]

theorem start_not_digit (starts : startsName c) : Decimal.isDigit c = false := by
  by_contra digit
  rw [Bool.not_eq_false] at digit
  obtain ⟨low, high⟩ := digit_bounds digit
  unfold startsName at starts
  rw [Bool.or_eq_true] at starts
  rcases starts with underscore | letter
  · rw [decide_eq_true_eq] at underscore
    rw [underscore] at high
    exact absurd high (by decide)
  · unfold Text.isAlphabetic at letter
    generalize c.toNat = n at low high letter
    have all : ∀ n, n < 58 → 48 ≤ n → Text.inSpans Text.alphabeticSpans n = false := by decide
    rw [all n (by omega) low] at letter
    cases letter

theorem start_not_special (starts : startsName c) :
    c ∉ ['\n', '\\', ' ', '\t', '\r', '#', '\'', '"', '='] := by
  intro listed
  have all : ∀ c ∈ ['\n', '\\', ' ', '\t', '\r', '#', '\'', '"', '='], startsName c = false := by decide
  rw [all c listed] at starts
  cases starts

-- A character that starts something on its line and does not go on with an equals sign.
def startsText (c : Char) : Bool := c ∉ ['\n', ' ', '\t', '\r', '#', '=']

theorem start_text (starts : startsName c) : startsText c := by
  have special := start_not_special starts
  simp_all [startsText]

variable {rest : List Char}

theorem token_step_other (c : Char) (here : l.rest = c :: rest) (feed : c ≠ '\n')
    (joint : c = '\\' → ∀ after, rest ≠ '\n' :: after) :
    l.tokenStep =
      if c = ' ' || c = '\t' || c = '\r' then .ok { l with rest }
      else if c = '#' then .ok { l with rest := rest.dropWhile (· ≠ '\n') }
      else if c = '\'' || c = '"' then do
        let (text, rest, line) ← quotedBody c l.line [] l.line rest
        .ok ({ l with rest, line }.push (.str (String.ofList text)))
      else if Decimal.isDigit c then do
        let (token, rest) ← numberToken l.line l.rest
        .ok ({ l with rest }.push token)
      else if startsName c then
        let (name, rest) := l.rest.span continuesName
        .ok ({ l with rest }.push (.name (String.ofList name)))
      else l.operatorStep c := by
  conv => lhs; unfold Lexer.tokenStep
  split
  · rename_i empty
    rw [here] at empty
    cases empty
  · rename_i _ same
    rw [here] at same
    exact absurd (List.cons.inj same).1 feed
  · rename_i after same
    rw [here] at same
    exact absurd (List.cons.inj same).2 (joint (List.cons.inj same).1 after)
  · rename_i d after _ _ same
    rw [here] at same
    obtain ⟨rfl, rfl⟩ := List.cons.inj same
    rfl

theorem token_step_name {rest : List Char} (here : l.rest = c :: rest) (starts : startsName c) :
    l.tokenStep = .ok ({ l with rest := (l.rest.span continuesName).2 }.push
      (.name (String.ofList (l.rest.span continuesName).1))) := by
  have special := start_not_special starts
  simp only [List.mem_cons, not_or] at special
  obtain ⟨feed, backslash, space, tab, cr, hash, single, double, _⟩ := special
  rw [token_step_other l c here feed (absurd · backslash), if_neg (by simp [space, tab, cr]), if_neg hash,
    if_neg (by simp [single, double]), if_neg (by rw [start_not_digit starts]; decide), if_pos starts]

def IsWord (cs : List Char) : Prop := ∃ c rest, cs = c :: rest ∧ startsName c ∧ ∀ d ∈ rest, continuesName d

theorem span_word (p : Char → Bool) {cs rest : List Char} (all : ∀ c ∈ cs, p c) (meets : Meets (fun c => !p c) rest) :
    (cs ++ rest).span p = (cs, rest) := by
  have stopped : rest.takeWhile p = [] ∧ rest.dropWhile p = rest := by
    cases rest with
    | nil => exact ⟨rfl, rfl⟩
    | cons c rest =>
      have fails : ¬p c := by simpa using meets c rfl
      exact ⟨List.takeWhile_cons_of_neg fails, List.dropWhile_cons_of_neg fails⟩
  rw [List.span_eq_takeWhile_dropWhile, List.takeWhile_append_of_pos all, List.dropWhile_append_of_pos all,
    stopped.1, stopped.2, List.append_nil]

theorem scans_word (word : IsWord cs) :
    Scans 0 endsName cs [⟨.name (String.ofList cs), 0⟩] := by
  obtain ⟨c, tail, rfl, starts, continues⟩ := word
  have all : ∀ d ∈ c :: tail, continuesName d := by
    rw [List.forall_mem_cons]
    exact ⟨starts_continues starts, continues⟩
  have flat : (c :: tail).count '\n' = 0 := by
    rw [List.count_eq_zero]
    intro inside
    exact absurd (all '\n' inside) (by decide)
  refine scans_of_step (by simp) flat ?_
  intro rest line depth indents read meets
  have named := token_step_name (Lexer.inside (c :: tail ++ rest) line depth indents read) rfl
    starts
  have spanned : (Lexer.inside (c :: tail ++ rest) line depth indents read).rest.span continuesName =
      (c :: tail, rest) := span_word continuesName all meets
  rw [spanned] at named
  exact named

theorem digit_chars (c : Char) (member : c ∈ Nat.toDigits 10 n) : Decimal.isDigit c := by
  have digit := Nat.isDigit_of_mem_toDigits (by decide) (by decide) member
  simpa [Decimal.isDigit, Char.isDigit, Char.le_def] using digit

theorem counts_up_to (limit : Nat) (cs : List Char) :
    min limit (Decimal.natOfDigitsUpTo limit cs) = min limit (Decimal.natOfDigits cs) := by
  have grows (cs : List Char) (start : Nat) : start ≤ cs.foldl (fun n c => 10 * n + (c.toNat - 48)) start := by
    induction cs generalizing start with
    | nil => exact Nat.le_refl _
    | cons c rest ih => exact Nat.le_trans (by omega) (ih (10 * start + (c.toNat - 48)))
  have same (start : Nat) : min limit (cs.foldl (fun n c => if limit ≤ n then n else 10 * n + (c.toNat - 48)) start) =
      min limit (cs.foldl (fun n c => 10 * n + (c.toNat - 48)) start) := by
    induction cs generalizing start with
    | nil => rfl
    | cons c rest ih =>
      rw [List.foldl_cons, List.foldl_cons, ih]
      split
      · have := grows rest start
        have := grows rest (10 * start + (c.toNat - 48))
        omega
      · rfl
  exact same 0

theorem digits_up_to {limit : Nat} {cs : List Char} (below : Decimal.natOfDigits cs < limit) :
    Decimal.natOfDigitsUpTo limit cs = Decimal.natOfDigits cs := by
  have := counts_up_to limit cs
  omega

theorem nat_chars : (toString n).toList = Nat.toDigits 10 n := Nat.toList_repr

theorem negative_chars : (toString (Int.negSucc n)).toList = '-' :: Nat.toDigits 10 (n + 1) := by
  change ("-" ++ Nat.repr (n + 1)).toList = _
  rw [String.toList_append, Nat.toList_repr]
  rfl

theorem nat_digits : Decimal.natOfDigits (Nat.toDigits 10 n) = n := Nat.ofDigitChars_ten_toDigits

theorem split_sign_digit (cs : List Char) (digit : Decimal.isDigit c) :
    Decimal.splitSign (c :: cs) = (false, c :: cs) := by
  unfold Decimal.splitSign
  split
  · rename_i same
    exact absurd ((List.cons.inj same).1 ▸ digit) (by decide)
  · rename_i same
    exact absurd ((List.cons.inj same).1 ▸ digit) (by decide)
  · rfl

theorem read_int_digits (digits : ∀ d ∈ c :: cs, Decimal.isDigit d) (fits : (Decimal.natOfDigits (c :: cs) : Int) < 2 ^ 63) :
    Decimal.readInt64? (String.ofList (c :: cs)) = some (Int64.ofInt (Decimal.natOfDigits (c :: cs))) := by
  have counted : Decimal.natOfDigitsUpTo UInt64.size (c :: cs) = Decimal.natOfDigits (c :: cs) := by
    apply digits_up_to
    rw [UInt64.size]
    omega
  unfold Decimal.readInt64?
  rw [String.toList_ofList, split_sign_digit cs (digits c List.mem_cons_self)]
  dsimp only
  rw [counted, List.isEmpty_cons, List.all_eq_true.mpr digits, if_neg (by decide), if_neg (by decide), Word.ofInt?,
    if_pos ⟨by rw [Word.least]; omega, by rw [Word.greatest]; omega⟩]

theorem fraction_digits_none (meets : Meets endsNumber rest) :
    fractionDigits rest = (none, rest) := by
  unfold fractionDigits
  split
  · exact absurd (meets '.' rfl) (by decide)
  · rfl

theorem exponent_digits_none (meets : Meets endsNumber rest) :
    exponentDigits rest = (none, rest) := by
  unfold exponentDigits
  split
  · rename_i c rest
    split
    · rename_i mark
      have ends := meets c rfl
      rw [Bool.or_eq_true, decide_eq_true_eq, decide_eq_true_eq] at mark
      rcases mark with rfl | rfl
      · exact absurd ends (by decide)
      · exact absurd ends (by decide)
    · rfl
  · rfl

theorem span_digits {digits : List Char} (all : ∀ c ∈ digits, Decimal.isDigit c)
    (meets : Meets (fun c => c = '.' || endsNumber c) rest) :
    (digits ++ rest).span (fun c => Decimal.isDigit c || c = '_') = (digits, rest) := by
  refine span_word _ (fun c member => by rw [all c member]; rfl) ?_
  intro c head
  have ends := meets c head
  rw [Bool.not_eq_true', Bool.or_eq_false_iff, decide_eq_false_iff_not]
  rw [Bool.or_eq_true, decide_eq_true_eq, endsNumber, Bool.and_eq_true] at ends
  rcases ends with rfl | ends
  · decide
  · constructor
    · by_contra digit
      rw [Bool.not_eq_false] at digit
      rw [digit_continues digit] at ends
      exact absurd ends.1 (by decide)
    · rintro rfl
      exact absurd ends.1 (by decide)

theorem digits_kept (digits : ∀ c ∈ cs, Decimal.isDigit c) :
    cs.filter (fun c => decide (c ≠ '_')) = cs := by
  rw [List.filter_eq_self]
  intro c member
  rw [decide_eq_true_eq]
  rintro rfl
  exact absurd (digits '_' member) (by decide)

structure Numeral (cs : List Char) (token : Token) : Prop where
  starts : ∃ c tail, cs = c :: tail ∧ Decimal.isDigit c
  flat : '\n' ∉ cs
  reads : ∀ line rest, Meets endsNumber rest → numberToken line (cs ++ rest) = .ok (token, rest)

theorem number_token_whole (digits : ∀ d ∈ c :: cs, Decimal.isDigit d) (fits : (Decimal.natOfDigits (c :: cs) : Int) < 2 ^ 63)
    (ends : Meets (fun c => c = '.' || endsNumber c) rest) (plain : fractionDigits rest = (none, rest))
    (unraised : exponentDigits rest = (none, rest)) :
    numberToken line (c :: cs ++ rest) = .ok (.int (Int64.ofInt (Decimal.natOfDigits (c :: cs))), rest) := by
  unfold numberToken
  rw [span_digits digits ends]
  dsimp only
  rw [plain, unraised, digits_kept digits, read_int_digits digits fits]

theorem numeral_whole (digits : ∀ d ∈ c :: cs, Decimal.isDigit d) (fits : (Decimal.natOfDigits (c :: cs) : Int) < 2 ^ 63) :
    Numeral (c :: cs) (.int (Int64.ofInt (Decimal.natOfDigits (c :: cs)))) where
  starts := ⟨c, cs, rfl, digits c List.mem_cons_self⟩
  flat inside := absurd (digits '\n' inside) (by decide)
  reads line rest meets := by
    have ends : Meets (fun c => c = '.' || endsNumber c) rest :=
      fun d head => Bool.or_eq_true_iff.mpr (Or.inr (meets d head))
    exact number_token_whole line digits fits ends (fraction_digits_none meets) (exponent_digits_none meets)

theorem numeral_nat (fits : (n : Int) < 2 ^ 63) : Numeral (Nat.toDigits 10 n) (.int (Int64.ofInt n)) := by
  obtain ⟨c, tail, split⟩ := List.exists_cons_of_ne_nil (Nat.toDigits_ne_nil)
  have value : Decimal.natOfDigits (c :: tail) = n := by rw [← split, nat_digits]
  have numeral := numeral_whole (split ▸ digit_chars n) (by rw [value]; exact fits)
  rw [value, ← split] at numeral
  exact numeral

theorem digit_lower (digit : Decimal.isDigit c) : c.toLower = c := by
  have high := (digit_bounds digit).2
  unfold Char.toLower
  rw [dif_neg]
  rintro ⟨low, _⟩
  have above : 65 ≤ c.toNat := low
  omega

theorem token_step_number {rest : List Char} (here : l.rest = c :: rest) (digit : Decimal.isDigit c) :
    l.tokenStep = (numberToken l.line l.rest).bind fun read =>
      .ok ({ l with rest := read.2 }.push read.1) := by
  have special : c ∉ ['\n', '\\', ' ', '\t', '\r', '#', '\'', '"'] := by
    intro listed
    have all : ∀ c ∈ ['\n', '\\', ' ', '\t', '\r', '#', '\'', '"'], Decimal.isDigit c = false := by decide
    rw [all c listed] at digit
    cases digit
  simp only [List.mem_cons, not_or] at special
  obtain ⟨feed, backslash, space, tab, cr, hash, single, double⟩ := special
  rw [token_step_other l c here feed (absurd · backslash), if_neg (by simp [space, tab, cr]), if_neg hash,
    if_neg (by simp [single, double]), if_pos digit]
  rfl

theorem number_step {token : Token} {tail after : List Char} (depth : Nat) (indents : List Nat) (read : List Located)
    (digit : Decimal.isDigit c) (reads : numberToken line (c :: tail) = .ok (token, after)) :
    (Lexer.inside (c :: tail) line depth indents read).step = .ok (Lexer.inside after line depth indents (⟨token, line⟩ :: read)) := by
  have numbered := token_step_number (Lexer.inside (c :: tail) line depth indents read) rfl digit
  have token : numberToken (Lexer.inside (c :: tail) line depth indents read).line
    (Lexer.inside (c :: tail) line depth indents read).rest = .ok (token, after) := reads
  rw [token] at numbered
  exact numbered

theorem scans_numeral {token : Token} (numeral : Numeral cs token) :
    Scans 0 endsNumber cs [⟨token, 0⟩] := by
  obtain ⟨c, tail, rfl, digit⟩ := numeral.starts
  refine scans_of_step (by simp) (List.count_eq_zero.mpr numeral.flat) ?_
  intro rest line depth indents read meets
  exact number_step line depth indents read digit (numeral.reads line rest meets)

-- A point before a name is not part of the number.
theorem scans_number_attr {name : List Char} (fits : (n : Int) < 2 ^ 63) (word : IsWord name) :
    Scans 0 endsName (Nat.toDigits 10 n ++ '.' :: name)
      [⟨.int (Int64.ofInt n), 0⟩, ⟨.op ".", 0⟩, ⟨.name (String.ofList name), 0⟩] := by
  obtain ⟨d, more, rfl, starts, continues⟩ := word
  have dotted := scans_append scans_dot (scans_word ⟨d, more, rfl, starts, continues⟩) rfl
  have digits := digit_chars n
  have value := nat_digits n
  obtain ⟨c, tail, split⟩ := List.exists_cons_of_ne_nil (Nat.toDigits_ne_nil (b := 10) (n := n))
  rw [split] at digits value ⊢
  have flat : (c :: tail).count '\n' = 0 := List.count_eq_zero.mpr fun inside => absurd (digits '\n' inside) (by decide)
  intro rest line depth indents read deep meets
  have plain : fractionDigits ('.' :: d :: (more ++ rest)) = (none, '.' :: d :: (more ++ rest)) := if_pos starts
  have token := number_token_whole line digits (value ▸ fits) (by simp [Meets]) plain rfl
  rw [value] at token
  have stepped := number_step line depth indents read (digits c List.mem_cons_self) token
  have whole : c :: tail ++ '.' :: d :: more ++ rest = c :: tail.append ('.' :: d :: (more ++ rest)) := List.append_assoc _ _ _
  rw [whole, Lexer.lex_step (by simp [Lexer.inside]) stepped, List.count_append, flat, Nat.zero_add]
  have tokens := dotted rest line depth indents (⟨.int (Int64.ofInt n), line⟩ :: read) deep meets
  simpa [shift] using tokens

theorem quoted_body_other {quote : Char} (start line : Nat) (read : List Char) (backslash : c ≠ '\\') :
    quotedBody quote start read line (c :: rest) =
      if c = quote then .ok (read.reverse, rest, line)
      else if c = '\n' then malformed start "unterminated string"
      else quotedBody quote start (c :: read) line rest := by
  rw [quotedBody.eq_def]
  split
  case h_1 same => cases same
  case h_12 =>
    rename_i d after _ _ _ _ _ _ _ _ _ _ same
    obtain ⟨rfl, rfl⟩ := List.cons.inj same
    rfl
  all_goals
    rename_i same
    exact absurd (List.cons.inj same).1 backslash

theorem quoted_body_quote (start line : Nat) (read text rest : List Char) :
    quotedBody '"' start read line (text.flatMap Code.quotedChar ++ '"' :: rest) =
      .ok (read.reverse ++ text, rest, line) := by
  induction text generalizing read with
  | nil =>
    rw [List.append_nil]
    rfl
  | cons c text ih =>
    have next (d : Char) : (d :: read).reverse ++ text = read.reverse ++ d :: text := by simp
    rw [List.flatMap_cons, List.append_assoc]
    by_cases quote : c = '"'
    · rw [quote, ← next]
      exact ih ('"' :: read)
    · by_cases backslash : c = '\\'
      · rw [backslash, ← next]
        exact ih ('\\' :: read)
      · by_cases feed : c = '\n'
        · rw [feed, ← next]
          exact ih ('\n' :: read)
        · by_cases cr : c = '\r'
          · rw [cr, ← next]
            exact ih ('\r' :: read)
          · by_cases tab : c = '\t'
            · rw [tab, ← next]
              exact ih ('\t' :: read)
            · have single : Code.quotedChar c = [c] := by
                unfold Code.quotedChar
                split <;> simp_all
              rw [single, List.singleton_append, quoted_body_other start line read backslash, if_neg quote,
                if_neg feed, ← next]
              exact ih (c :: read)

theorem quote_chars (rest : List Char) :
    (Code.quote s).toList ++ rest = '"' :: (s.toList.flatMap Code.quotedChar ++ '"' :: rest) := by
  rw [Code.quote, String.toList_ofList]
  simp

theorem quote_flat : '\n' ∉ (Code.quote s).toList := by
  have inner (c : Char) : '\n' ∉ Code.quotedChar c := by
    unfold Code.quotedChar
    split <;> simp_all [eq_comm]
  rw [← List.append_nil (Code.quote s).toList, quote_chars]
  simp [inner]

theorem token_step_quote (here : l.rest = (Code.quote s).toList ++ rest) :
    l.tokenStep = .ok ({ l with rest }.push (.str s)) := by
  rw [quote_chars] at here
  have stepped := token_step_other l '"' here (by decide) (absurd · (by decide))
  rw [quoted_body_quote, List.reverse_nil, List.nil_append] at stepped
  refine stepped.trans ?_
  change Except.ok _ = _
  rw [String.ofList_toList]

theorem scans_quote : Scans 0 anyChar (Code.quote s).toList [⟨.str s, 0⟩] := by
  refine scans_of_step (by rw [← List.append_nil (Code.quote s).toList, quote_chars]; simp)
    (List.count_eq_zero.mpr (quote_flat s)) ?_
  exact fun rest line depth indents read _ => token_step_quote _ s rfl

theorem quoted_text_stays_one_token (s r : String) :
    '\n' ∉ (Code.quote s).toList ∧
    (∃ body, (Code.quote s ++ r).toList = '"' :: body ∧
      ∀ start line, quotedBody '"' start [] line body = .ok (s.toList, r.toList, line)) ∧
    ∀ l : Lexer, l.rest = (Code.quote s ++ r).toList → l.tokenStep = .ok ({ l with rest := r.toList }.push (.str s)) := by
  rw [String.toList_append]
  refine ⟨quote_flat s, ⟨_, quote_chars s r.toList, fun start line => ?_⟩, fun l here => token_step_quote l s here⟩
  exact quoted_body_quote start line [] s.toList r.toList

end Flowstep.Script
