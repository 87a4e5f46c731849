import Flowstep.Json.Parser
import Flowstep.Proofs.Records
import Flowstep.Proofs.Scanning

/-!
The text of a JSON value is read as the value.
-/
namespace Flowstep.Json

open Script (Meets digit_chars digits_up_to nat_chars nat_digits negative_chars span_word)

inductive Escape (c : Char) : List Char → Prop where
  | letter (e : Char) (stands : escaped? e = some c) : Escape c ['\\', e]
  | unit (small : c.toNat < 32) : Escape c ['\\', 'u', '0', '0', hexDigit (c.toNat / 16), hexDigit (c.toNat % 16)]
  | plain (quote : c ≠ '"') (backslash : c ≠ '\\') (large : ¬c.toNat < 32) : Escape c [c]

theorem escape_char (c : Char) : Escape c (escapeChar c) := by
  have code (n : Nat) (same : c.toNat = n) : c = Char.ofNat n := by rw [← same, Char.ofNat_toNat]
  unfold escapeChar
  split
  · exact .letter _ (by simp_all [escaped?])
  · split
    · exact .letter _ (by simp_all [escaped?])
    · split
      · exact .letter _ (by simp_all [escaped?])
      · split
        · exact .letter _ (by simp_all [escaped?])
        · split
          · exact .letter _ (by simp_all [escaped?])
          · split
            · rename_i same
              exact .letter _ (by rw [code 8 same]; rfl)
            · split
              · rename_i same
                exact .letter _ (by rw [code 12 same]; rfl)
              · split
                · exact .unit ‹_›
                · exact .plain ‹_› ‹_› ‹_›

theorem hex_digit_value : ∀ n < 16, hexValue? (hexDigit n) = some n := by decide

theorem quotation_escape (q : Quotation) (alone : q.high = none) (c : Char) (rest : List Char) :
    quotation q (escapeChar c ++ rest) = quotation { q with read := c :: q.read } rest := by
  have push : q.push c = { q with read := c :: q.read } := by
    rw [Quotation.push, alone, Option.isNone_none, Bool.and_true]
  rw [← push]
  generalize text : escapeChar c = chars
  have escape := text ▸ escape_char c
  cases escape with
  | letter e stands =>
    have other : e ≠ 'u' := by
      rintro rfl
      cases stands
    simp [quotation, stands, other]
  | unit small =>
    have number : hexUnit? '0' '0' (hexDigit (c.toNat / 16)) (hexDigit (c.toNat % 16)) = some c.toNat := by
      have zero : hexValue? '0' = some 0 := by decide
      rw [hexUnit?, zero, hex_digit_value _ (by omega), hex_digit_value _ (by omega)]
      simp only [Option.bind_eq_bind, Option.bind_some, Option.some.injEq]
      omega
    have whole : q.pushUnit c.toNat = q.push c := by
      have high : isHighUnit c.toNat = false := by simp [isHighUnit]; omega
      have low : isLowUnit c.toNat = false := by simp [isLowUnit]; omega
      rw [Quotation.pushUnit, high, low, if_neg (by decide), if_neg (by decide), Char.ofNat_toNat]
    simp only [List.cons_append, List.nil_append]
    rw [quotation, number]
    dsimp only
    rw [whole]
  | plain quote backslash large =>
    rw [List.singleton_append, quotation]
    · rw [if_neg (by simp [large, backslash])]
    · exact fun same => absurd same quote
    · exact fun _ _ _ _ _ same => absurd same backslash
    · exact fun _ _ same => absurd same backslash

variable (fuel room level : Nat) (cs rest : List Char) (e : String × Json)

theorem quotation_text (q : Quotation) (alone : q.high = none) :
    quotation q (cs.flatMap escapeChar ++ '"' :: rest) = some ({ q with read := cs.reverse ++ q.read }.text?, rest) := by
  induction cs generalizing q with
  | nil => rw [List.flatMap_nil, List.nil_append, quotation, List.reverse_nil, List.nil_append]
  | cons c cs ih =>
    rw [List.flatMap_cons, List.append_assoc, quotation_escape q alone, ih { q with read := c :: q.read } alone,
      List.reverse_cons, List.append_assoc, List.singleton_append]

theorem string_body (s : String) (rest : List Char) :
    stringBody (s.toList.flatMap escapeChar ++ '"' :: rest) = some (some s, rest) := by
  rw [stringBody, quotation_text _ _ _ rfl]
  simp [Quotation.text?]

def endsValue (c : Char) : Bool := c = ',' || c = '\n'

variable {c : Char}

theorem ends_value (ends : endsValue c = true) : c = ',' ∨ c = '\n' := by
  simpa [endsValue] using ends

theorem digits_head {n : Nat} (zero : (Nat.toDigits 10 n).head? = some '0') : n = 0 := by
  induction n using Nat.strongRecOn with
  | ind n ih =>
    by_cases small : n < 10
    · have digit : ∀ n < 10, n.digitChar = '0' → n = 0 := by decide
      rw [Nat.toDigits_of_lt_base small, List.head?_cons, Option.some.injEq] at zero
      exact digit n small zero
    · obtain ⟨c, cs, front⟩ := List.exists_cons_of_ne_nil (Nat.toDigits_ne_nil)
      rw [Nat.toDigits_of_base_le (by decide) (by omega), front, List.cons_append, List.head?_cons] at zero
      have := ih (n / 10) (by omega) (by rw [front, List.head?_cons, zero])
      omega

theorem no_leading_zero (n : Nat) :
    ((Nat.toDigits 10 n).length > 1 && (Nat.toDigits 10 n).head? == some '0') = false := by
  by_cases zero : (Nat.toDigits 10 n).head? = some '0'
  · rw [digits_head zero]
    decide
  · rw [beq_eq_false_iff_ne.mpr zero, Bool.and_false]

variable {rest : List Char}

theorem fraction_none (ends : Meets endsValue rest) : fractionPart rest = some (none, rest) := by
  unfold fractionPart
  split
  · exact absurd (ends '.' rfl) (by decide)
  · rfl

theorem exponent_none (ends : Meets endsValue rest) : exponentPart rest = some (none, rest) := by
  cases rest with
  | nil => rfl
  | cons c rest =>
    rcases ends_value (ends c rfl) with rfl | rfl <;> rfl

theorem unsigned_digits (negative : Bool) (n : Nat) (ends : Meets endsValue rest) (fits : n < UInt64.size)
    (word : negative = true → 0 < n ∧ Word.least ≤ -n) :
    unsignedNumber negative (Nat.toDigits 10 n ++ rest) = some (.int (if negative then -n else n), rest) := by
  have stops : Meets (fun c => !Decimal.isDigit c) rest := by
    intro c first
    rcases ends_value (ends c first) with rfl | rfl <;> decide
  have spanned := span_word Decimal.isDigit (digit_chars n) stops
  have filled : (Nat.toDigits 10 n).isEmpty = false := by simp
  have counted : Decimal.natOfDigitsUpTo UInt64.size (Nat.toDigits 10 n) = n := by
    have number := nat_digits n
    rw [digits_up_to (by rw [number]; exact fits), number]
  unfold unsignedNumber
  rw [spanned]
  dsimp only
  rw [filled, no_leading_zero, fraction_none ends, Bool.or_false, if_neg Bool.false_ne_true, Option.bind_eq_bind,
    Option.bind_some]
  rw [exponent_none ends, Option.bind_eq_bind, Option.bind_some, counted]
  cases negative with
  | false => rw [Bool.not_false, Bool.true_and, decide_eq_true fits, if_pos rfl, if_neg Bool.false_ne_true]
  | true =>
    obtain ⟨positive, least⟩ := word rfl
    rw [Bool.not_true, Bool.false_and, if_neg Bool.false_ne_true, decide_eq_true positive, decide_eq_true least,
      Bool.true_and, Bool.true_and, if_pos rfl, if_pos rfl]

def Word64 (n : Int) : Prop := Word.least ≤ n ∧ n < UInt64.size

theorem scalar_number (first : c = '-' ∨ Decimal.isDigit c = true) (cs : List Char) :
    scalar (c :: cs) = number (c :: cs) := by
  have other (d : Char) (sign : d ≠ '-') (digit : Decimal.isDigit d = false) : c ≠ d := by
    rintro rfl
    exact first.elim sign fun yes => by rw [digit] at yes; cases yes
  unfold scalar
  split
  · exact absurd (List.cons.inj ‹_›).1 (other 'n' (by decide) (by decide))
  · exact absurd (List.cons.inj ‹_›).1 (other 't' (by decide) (by decide))
  · exact absurd (List.cons.inj ‹_›).1 (other 'f' (by decide) (by decide))
  · exact absurd (List.cons.inj ‹_›).1 (other '"' (by decide) (by decide))
  · rfl

theorem number_text (n : Int) (fits : Word64 n) (ends : Meets endsValue rest) :
    scalar ((toString n).toList ++ rest) = some (.int n, rest) := by
  obtain ⟨least, most⟩ := fits
  cases n with
  | ofNat n =>
    have digits := unsigned_digits false n ends (Int.ofNat_lt.mp most) (by simp)
    obtain ⟨c, cs, split⟩ := List.exists_cons_of_ne_nil (Nat.toDigits_ne_nil)
    have digit := digit_chars n c (by rw [split]; exact List.mem_cons_self)
    have unsigned : number (c :: (cs ++ rest)) = unsignedNumber false (c :: (cs ++ rest)) := by
      unfold number
      split
      · exact absurd ((List.cons.inj ‹_›).1 ▸ digit) (by decide)
      · rfl
    rw [split, List.cons_append] at digits
    rw [show (toString (Int.ofNat n)).toList = _ from nat_chars n, split, List.cons_append, scalar_number (.inr digit), unsigned, digits]
    rfl
  | negSucc n =>
    rw [Word.least] at least
    rw [negative_chars]
    exact unsigned_digits true (n + 1) ends (by rw [UInt64.size]; omega) fun _ => ⟨by omega, by rw [Word.least]; omega⟩

def startsScalar (c : Char) : Bool := c = 'n' || c = 't' || c = 'f' || c = '"' || c = '-' || Decimal.isDigit c

def ReadableFloat (x : Float) : Prop :=
  (∃ c cs, (floatText x).toList = c :: cs ∧ startsScalar c = true) ∧
    ∀ rest, Meets endsValue rest → scalar ((floatText x).toList ++ rest) = some (.float x, rest)

-- The values whose text is read back: arrays and objects are nested at most this deep, whole numbers are words, and the texts
-- of doubles are read back.
def Holds : Nat → Json → Prop
  | _, .int n => Word64 n
  | _, .float x => ReadableFloat x
  | 0, .arr _ | 0, .obj _ => False
  | deep + 1, .arr items => ∀ j ∈ items, Holds deep j
  | deep + 1, .obj fields => ∀ j ∈ fields.values, Holds deep j
  | _, _ => True

def isFlat : Json → Bool
  | .arr _ | .obj _ => false
  | _ => true

theorem skip_newline (rest : List Char) : skipSpace ((newline level).toList ++ rest) = skipSpace rest := by
  have spaces (n : Nat) : (List.replicate n ' ' ++ rest).dropWhile isSpace = rest.dropWhile isSpace := by
    induction n with
    | zero => rfl
    | succ n ih => exact ih
  rw [newline, String.toList_append, Text.spaces_chars]
  exact spaces _

variable {j : Json}

theorem wide_flat (flat : isFlat j = true) (level : Nat) : renderWide level j = render j := by
  cases j with
  | arr items => cases flat
  | obj fields => cases flat
  | _ => simp [renderWide]

variable {deep : Nat}

theorem scalar_text (flat : isFlat j = true) (holds : Holds deep j) (ends : Meets endsValue rest) :
    scalar ((render j).toList ++ rest) = some (.ofJson j, rest) := by
  cases j with
  | null => simp [render, scalar, Written.ofJson]
  | bool b => cases b <;> simp [render, scalar, Written.ofJson]
  | int n =>
    exact number_text n (by rwa [Holds] at holds) ends
  | float x =>
    rw [Holds] at holds
    exact holds.2 rest ends
  | str s =>
    rw [render, quoted, String.toList_ofList, List.cons_append, List.append_assoc, scalar,
      List.singleton_append, string_body]
    rfl
  | arr items => cases flat
  | obj fields => cases flat

theorem scalar_start (flat : isFlat j = true) (holds : Holds deep j) :
    ∃ c cs, (render j).toList = c :: cs ∧ startsScalar c = true := by
  cases j with
  | null => exact ⟨'n', _, by rw [render]; rfl, by decide⟩
  | bool b =>
    cases b with
    | true => exact ⟨'t', _, by rw [render]; rfl, by decide⟩
    | false => exact ⟨'f', _, by rw [render]; rfl, by decide⟩
  | int n =>
    cases n with
    | ofNat n =>
      obtain ⟨c, cs, split⟩ := List.exists_cons_of_ne_nil (Nat.toDigits_ne_nil)
      have digit := digit_chars n c (by rw [split]; exact List.mem_cons_self)
      exact ⟨c, cs, (nat_chars n).trans split, by simp [startsScalar, digit]⟩
    | negSucc n => exact ⟨'-', _, negative_chars n, by decide⟩
  | float x =>
    rw [Holds] at holds
    exact holds.1
  | str s => exact ⟨'"', _, by rw [render, quoted, String.toList_ofList], by decide⟩
  | arr items => cases flat
  | obj fields => cases flat

def fieldText (level : Nat) (e : String × Json) : String := quoted e.1 ++ ": " ++ renderWide level e.2

def moreParts (level : Nat) (parts : List String) : List Char :=
  parts.flatMap fun part => ',' :: ((newline level).toList ++ part.toList)

def shut (level : Nat) (close : Char) (first : String) (others : List String) : List Char :=
  (newline (level + 1)).toList ++ (first.toList ++ (moreParts (level + 1) others ++ ((newline level).toList ++ [close])))

theorem parts_chars (first : String) (others : List String) :
    (Text.joinWith ("," ++ newline level) (first :: others)).toList = first.toList ++ moreParts level others := by
  induction others generalizing first with
  | nil => simp [Text.joinWith, moreParts]
  | cons next others ih =>
    rw [Text.join_with_cons, String.toList_append, ih next]
    simp [moreParts]

theorem array_chars (j : Json) (rest : List Json) : (renderWide level (.arr (j :: rest))).toList =
    '[' :: shut level ']' (renderWide (level + 1) j) (rest.map (renderWide (level + 1))) := by
  have texts (items : List Json) : wideItems (level + 1) items = items.map (renderWide (level + 1)) := by
    induction items with
    | nil => rfl
    | cons j rest ih => rw [wideItems, ih, List.map_cons]
  rw [renderWide, texts, List.map_cons]
  · simp [parts_chars, shut]
  · exact List.cons_ne_nil _ _

theorem object_chars (rest : List (String × Json)) : (renderWide level (.obj ⟨e :: rest⟩)).toList =
    '\x7b' :: shut level '\x7d' (fieldText (level + 1) e) (rest.map (fieldText (level + 1))) := by
  have texts (fields : List (String × Json)) : wideFields (level + 1) fields = fields.map (fieldText (level + 1)) := by
    induction fields with
    | nil => rfl
    | cons e rest ih => rw [wideFields, ih, List.map_cons, fieldText]
  rw [renderWide, texts, List.map_cons]
  · simp [parts_chars, shut]
  · exact List.cons_ne_nil _ _

theorem start_solid (starts : startsScalar c = true) :
    isSpace c = false ∧ c ≠ '[' ∧ c ≠ '\x7b' ∧ c ≠ ']' ∧ c ≠ '\x7d' := by
  have other (d : Char) (no : startsScalar d = false) : c ≠ d := by
    rintro rfl
    rw [no] at starts
    cases starts
  refine ⟨?_, other _ (by decide), other _ (by decide), other _ (by decide), other _ (by decide)⟩
  simp [isSpace, other ' ' (by decide), other '\n' (by decide), other '\t' (by decide), other '\r' (by decide)]

theorem skip_solid (solid : isSpace c = false) (cs : List Char) : skipSpace (c :: cs) = c :: cs :=
  List.dropWhile_cons_of_neg (by rw [solid]; decide)

theorem wide_start (holds : Holds deep j) (level : Nat) :
    ∃ c cs, (renderWide level j).toList = c :: cs ∧ isSpace c = false ∧ c ≠ ']' := by
  cases j with
  | arr items =>
    cases items with
    | nil => exact ⟨'[', [']'], by rw [renderWide]; rfl, by decide, by decide⟩
    | cons j rest => exact ⟨'[', _, array_chars level j rest, by decide, by decide⟩
  | obj fields =>
    obtain ⟨fields⟩ := fields
    cases fields with
    | nil => exact ⟨'\x7b', ['\x7d'], by rw [renderWide]; rfl, by decide, by decide⟩
    | cons e rest => exact ⟨'\x7b', _, object_chars level e rest, by decide, by decide⟩
  | _ =>
    obtain ⟨c, cs, text, starts⟩ := scalar_start rfl holds
    have solid := start_solid starts
    exact ⟨c, cs, text, solid.1, solid.2.2.2.1⟩

theorem value_skips {cs rest : List Char} (same : skipSpace cs = skipSpace rest) : value fuel room cs = value fuel room rest := by
  cases fuel with
  | zero => rw [value, value]
  | succ fuel => rw [value, value, same]

theorem value_scalar (flat : isFlat j = true) (holds : Holds deep j) (level fuel room : Nat) (ends : Meets endsValue rest) :
    value (fuel + 1) room ((renderWide level j).toList ++ rest) = some (.ofJson j, rest) := by
  obtain ⟨c, cs, text, starts⟩ := scalar_start flat holds
  obtain ⟨solid, bracket, brace, -⟩ := start_solid starts
  have reads := scalar_text flat holds ends
  rw [text] at reads
  rw [wide_flat flat, text, List.cons_append, value, skip_solid solid]
  split
  · exact absurd (List.cons.inj ‹_›).1 bracket
  · exact absurd (List.cons.inj ‹_›).1 brace
  · exact reads

theorem field_name (name : String) (rest : List Char) :
    fieldName (skipSpace ((quoted name).toList ++ (':' :: rest))) = some (some name, rest) := by
  rw [quoted, String.toList_ofList, List.cons_append, List.append_assoc, List.singleton_append,
    skip_solid (by decide), fieldName, string_body]
  rfl

theorem newline_end (rest : List Char) : Meets endsValue ((newline level).toList ++ rest) := by
  intro c first
  rw [newline, String.toList_append] at first
  cases first
  decide

-- A part of an array or an object: whoever reads the parts takes it and goes on behind it.
def Part {β : Type} (loop : Nat → List β → Scan Written) (close : Char) (finish : List β → Written) (text : String) (b : β) : Prop :=
  ∀ fuel read lead after rest, (∀ cs, skipSpace (lead ++ cs) = skipSpace cs) → 2 * text.toList.length < fuel →
    Meets endsValue after →
    (skipSpace after = ',' :: rest → loop (fuel + 1) read (lead ++ (text.toList ++ after)) = loop fuel (b :: read) rest) ∧
      (skipSpace after = close :: rest →
        loop (fuel + 1) read (lead ++ (text.toList ++ after)) = some (finish (b :: read).reverse, rest))

section

variable {α β : Type} {loop : Nat → List β → Scan Written} {close : Char} {finish : List β → Written} {text : α → String}
  {result : α → β} {x : α} {xs : List α} (solid : isSpace close = false)
  (each : ∀ y ∈ x :: xs, Part loop close finish (text y) (result y))

include solid each

theorem parts_wide (level above fuel : Nat) (read : List β) (lead rest : List Char)
    (skips : ∀ cs, skipSpace (lead ++ cs) = skipSpace cs)
    (fueled : 2 * ((text x).toList ++ moreParts level (xs.map text)).length < fuel) :
    loop (fuel + 1) read
        (lead ++ ((text x).toList ++ (moreParts level (xs.map text) ++ ((newline above).toList ++ close :: rest)))) =
      some (finish (read.reverse ++ (x :: xs).map result), rest) := by
  induction xs generalizing x fuel read lead with
  | nil =>
    have closes : skipSpace ((newline above).toList ++ close :: rest) = close :: rest := by
      rw [skip_newline, skip_solid solid]
    have ends := (each x List.mem_cons_self fuel read lead _ rest skips (by simpa [moreParts] using fueled)
      (newline_end above _)).2 closes
    simpa [moreParts] using ends
  | cons y xs ih =>
    obtain _ | fuel := fuel
    · omega
    obtain ⟨first, others⟩ := List.forall_mem_cons.mp each
    simp only [List.map_cons, moreParts, List.flatMap_cons, List.length_append, List.length_cons] at fueled
    let tail := (newline level).toList ++
      ((text y).toList ++ (moreParts level (xs.map text) ++ ((newline above).toList ++ close :: rest)))
    have follows : moreParts level ((y :: xs).map text) ++ ((newline above).toList ++ close :: rest) = ',' :: tail := by
      simp [moreParts, tail]
    have taken := first (fuel + 1) read lead (',' :: tail) tail skips (by omega) fun c head => by cases head; decide
    rw [follows, taken.1 rfl, ih others fuel (result x :: read) (newline level).toList (skip_newline level)
      (by rw [List.length_append, moreParts]; omega)]
    simp

theorem shut_wide {opens : Char} {room : Nat} (enters : ∀ level fuel c cs, isSpace c = false → c ≠ close →
      value (fuel + 1) (room + 1) (opens :: ((newline level).toList ++ c :: cs)) = loop fuel [] (c :: cs))
    (starts : ∃ c cs, (text x).toList = c :: cs ∧ isSpace c = false ∧ c ≠ close) (level fuel : Nat) (rest : List Char)
    (fueled : 2 * (opens :: shut level close (text x) (xs.map text)).length < fuel + 1) :
    value (fuel + 1) (room + 1) (opens :: shut level close (text x) (xs.map text) ++ rest) =
      some (finish ((x :: xs).map result), rest) := by
  simp only [shut, List.length_cons, List.length_append] at fueled
  obtain _ | fuel := fuel
  · omega
  have inner := parts_wide solid each (level + 1) level fuel [] [] rest (fun _ => rfl) (by rw [List.length_append]; omega)
  obtain ⟨c, cs, chars, blank, other⟩ := starts
  rw [chars] at inner
  rw [shut, chars]
  simp only [List.cons_append, List.append_assoc, List.nil_append] at inner ⊢
  rw [enters _ _ _ _ blank other, inner, List.reverse_nil, List.nil_append]

end

def Reads (room : Nat) (j : Json) : Prop :=
  ∀ (level fuel : Nat) (rest : List Char), 2 * (renderWide level j).toList.length < fuel → Meets endsValue rest →
    value fuel room ((renderWide level j).toList ++ rest) = some (.ofJson j, rest)

variable {room : Nat}

theorem item_part (level : Nat) (reads : Reads room j) :
    Part (fun fuel => elements fuel room) ']' .arr (renderWide level j) (.ofJson j) := by
  intro fuel read lead after rest skips fueled ends
  have item := (value_skips fuel room (skips _)).trans (reads level fuel after fueled ends)
  dsimp only
  rw [elements, item]
  dsimp only
  constructor
  all_goals
    intro follows
    rw [follows]
    rfl

theorem field_part (level : Nat) (reads : Reads room e.2) :
    Part (fun fuel read => members fuel room (some read)) '\x7d' .obj (fieldText level e) (e.1, .ofJson e.2) := by
  intro fuel read lead after rest skips fueled ends
  have chars : (fieldText level e).toList ++ after =
      (quoted e.1).toList ++ (':' :: ' ' :: ((renderWide level e.2).toList ++ after)) := by
    simp [fieldText]
  have space (cs : List Char) : skipSpace (' ' :: cs) = skipSpace cs := rfl
  have item := (value_skips fuel room (space _)).trans (reads level fuel after (by simp [fieldText] at fueled; omega) ends)
  dsimp only
  rw [chars, members, skips, field_name]
  dsimp only
  rw [item]
  dsimp only
  constructor
  all_goals
    intro follows
    rw [follows]
    rfl

theorem array_wide (inside : 0 < room) {items : List Json} (holds : ∀ j ∈ items, Holds deep j)
    (all : ∀ j ∈ items, Reads room j) : Reads (room + 1) (.arr items) := by
  intro level fuel rest fueled ends
  obtain _ | fuel := fuel
  · omega
  cases items with
  | nil =>
    rw [renderWide]
    exact if_neg (by omega)
  | cons j items =>
    rw [array_chars] at fueled ⊢
    rw [Written.ofJson, items_written]
    refine shut_wide (by decide) (fun k member => item_part (level + 1) (all k member)) (fun level fuel c cs solid other => ?_)
      (wide_start (holds j List.mem_cons_self) (level + 1)) level fuel rest fueled
    refine (if_neg (by omega)).trans ?_
    rw [skip_newline, skip_solid solid]
    split
    · exact absurd (List.cons.inj ‹_›).1 other
    · rfl

theorem object_wide (inside : 0 < room) {fields : List (String × Json)} (all : ∀ f ∈ fields, Reads room f.2) :
    Reads (room + 1) (.obj ⟨fields⟩) := by
  intro level fuel rest fueled ends
  obtain _ | fuel := fuel
  · omega
  cases fields with
  | nil =>
    rw [renderWide]
    exact if_neg (by omega)
  | cons e fields =>
    rw [object_chars] at fueled ⊢
    rw [Written.ofJson, fields_written]
    refine shut_wide (by decide) (fun f member => field_part f (level + 1) (all f member)) (fun level fuel c cs solid other => ?_)
      ⟨'"', _, by simp [fieldText, quoted]; rfl, by decide, by decide⟩ level fuel rest fueled
    refine (if_neg (by omega)).trans ?_
    rw [skip_newline, skip_solid solid]
    split
    · exact absurd (List.cons.inj ‹_›).1 other
    · rfl

theorem flat_wide (room : Nat) (flat : isFlat j = true) (holds : Holds deep j) : Reads room j := by
  intro level fuel rest fueled ends
  obtain _ | fuel := fuel
  · omega
  exact value_scalar flat holds level fuel room ends

theorem value_wide (deep : Nat) (j : Json) (holds : Holds deep j) : Reads (deep + 1) j := by
  induction deep generalizing j with
  | zero =>
    cases j with
    | arr items => rw [Holds] at holds; exact holds.elim
    | obj fields => rw [Holds] at holds; exact holds.elim
    | _ => exact flat_wide _ rfl holds
  | succ deep ih =>
    cases j with
    | arr items =>
      exact array_wide (Nat.succ_pos _) holds fun k mem => ih k (holds k mem)
    | obj fields =>
      exact object_wide (Nat.succ_pos _) fun e mem => ih e.2 (holds e.2 (List.mem_map_of_mem mem))
    | _ => exact flat_wide _ rfl holds

theorem parse_wide (holds : Holds 127 j) : Written.parse? (j.renderWide 0) = some (.ofJson j) := by
  have reads := value_wide 127 j holds 0 (2 * (j.renderWide 0).toList.length + 2) [] (by omega) (fun c first => by cases first)
  rw [List.append_nil] at reads
  rw [Written.parse?, reads]
  rfl

end Flowstep.Json
