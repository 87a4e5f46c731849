import Flowstep.Proofs.LineMapping
import Flowstep.Proofs.Scanning

/-!
The text of a line map is read as the map it was written from.
-/
namespace Flowstep.Text

theorem split_from_char (sep : Char) (piece cs : List Char) :
    splitFrom [sep] 0 piece cs = (cs.splitOn sep).modifyHead (piece.reverse ++ ·) := by
  induction cs generalizing piece with
  | nil => simp [splitFrom]
  | cons c rest ih =>
    rw [splitFrom, List.splitOn_cons_eq_if_modifyHead]
    by_cases here : c = sep
    · subst here
      simp only [List.isPrefixOf, beq_self_eq_true, if_true, List.length_singleton, ih,
        List.modifyHead_cons, List.append_nil, List.reverse_nil, List.nil_append]
      rw [show (fun x : List Char => x) = id from rfl, List.modifyHead_id]
      rfl
    · have other : ([sep].isPrefixOf (c :: rest)) = false := by simp [List.isPrefixOf, Ne.symm here]
      have differs : (c == sep) = false := beq_eq_false_iff_ne.mpr here
      rw [other, differs, ih]
      simp [Function.comp_def]

theorem split_by_char (sep : Char) (s : String) :
    splitBy (String.singleton sep) s = (s.toList.splitOn sep).map String.ofList := by
  rw [splitBy, if_neg (by simp), String.toList_singleton, split_from_char]
  simp only [List.reverse_nil, List.nil_append]
  rw [show (fun x : List Char => x) = id from rfl, List.modifyHead_id]
  rfl

theorem split_by_absent {sep : Char} {s : String} (absent : sep ∉ s.toList) : splitBy (String.singleton sep) s = [s] := by
  have whole : ([sep].intercalate [s.toList]).splitOn sep = [s.toList] :=
    List.splitOn_intercalate sep (by simpa using absent) (by simp)
  rw [List.intercalate_singleton] at whole
  rw [split_by_char, whole]
  simp

theorem split_by_joined (sep : Char) (parts : List String) (present : parts ≠ [])
    (absent : ∀ part ∈ parts, sep ∉ part.toList) :
    splitBy (String.singleton sep) (joinWith (String.singleton sep) parts) = parts := by
  have cut : ([sep].intercalate (parts.map String.toList)).splitOn sep = parts.map String.toList := by
    refine List.splitOn_intercalate sep ?_ (by simpa using present)
    intro cs member
    obtain ⟨part, inside, rfl⟩ := List.mem_map.mp member
    exact absent part inside
  rw [split_by_char, join_with_chars, String.toList_singleton, cut]
  simp

theorem trim_solid {s : String} (solid : ∀ c ∈ s.toList, isBlank c = false) : trim s = s := by
  have kept (cs : List Char) (all : ∀ c ∈ cs, isBlank c = false) : cs.dropWhile isBlank = cs := by
    cases cs with
    | nil => rfl
    | cons c rest => rw [List.dropWhile_cons_of_neg (by simp [all c List.mem_cons_self])]
  rw [trim, trimStart, kept _ solid, String.ofList_toList, trimEnd,
    kept _ fun c member => solid c (List.mem_reverse.mp member), List.reverse_reverse, String.ofList_toList]

end Flowstep.Text

namespace Flowstep.Code

open Script (digit_bounds digit_chars digits_up_to nat_chars nat_digits span_word Meets)

theorem read_nat_text {n : Nat} (fits : n < UInt64.size) : Decimal.readNat64? (toString n) = some n := by
  obtain ⟨c, cs, split⟩ := List.exists_cons_of_ne_nil (Nat.toDigits_ne_nil)
  have digits : ∀ d ∈ c :: cs, Decimal.isDigit d := fun d member => digit_chars n d (split ▸ member)
  have value : Decimal.natOfDigits (c :: cs) = n := by rw [← split, nat_digits]
  have below : Decimal.natOfDigits (c :: cs) < UInt64.size := by rwa [value]
  have counted : Decimal.natOfDigitsUpTo UInt64.size (c :: cs) = n := (digits_up_to below).trans value
  unfold Decimal.readNat64?
  split
  · rename_i rest same
    rw [nat_chars, split] at same
    exact absurd (digits '+' (by rw [same]; exact List.mem_cons_self)) (by decide)
  · rw [nat_chars, split, if_neg (by simpa using digits), counted, if_pos fits]

namespace LineMap

theorem pair_chars (e : Nat × Nat) : (pairText e).toList = Nat.toDigits 10 e.1 ++ ':' :: Nat.toDigits 10 e.2 := by
  rw [pairText, String.toList_append, String.toList_append, nat_chars, nat_chars, List.append_assoc]
  rfl

variable {e : Nat × Nat} {c : Char}

theorem pair_char (member : c ∈ (pairText e).toList) : Decimal.isDigit c ∨ c = ':' := by
  rw [pair_chars, List.mem_append, List.mem_cons] at member
  rcases member with first | colon | second
  · exact .inl (digit_chars _ c first)
  · exact .inr colon
  · exact .inl (digit_chars _ c second)

theorem digit_solid (digit : Decimal.isDigit c) : Text.isBlank c = false := by
  have bounds := digit_bounds digit
  simp only [Text.isBlank, Bool.or_eq_false_iff, Bool.and_eq_false_iff, decide_eq_false_iff_not, beq_eq_false_iff_ne]
  omega

theorem nat_text_trimmed (n : Nat) : Text.trim (toString n) = toString n :=
  Text.trim_solid fun c member => digit_solid (digit_chars n c (nat_chars n ▸ member))

theorem pair_text_trimmed (e : Nat × Nat) : Text.trim (pairText e) = pairText e := by
  refine Text.trim_solid fun c member => ?_
  rcases pair_char member with digit | rfl
  · exact digit_solid digit
  · decide

def Fits (e : Nat × Nat) : Prop := (0 < e.1 ∧ e.1 < UInt64.size) ∧ 0 < e.2 ∧ e.2 < UInt64.size

theorem read_pair_text (fits : Fits e) : readPair? (pairText e) = some e := by
  have digits : ∀ c ∈ Nat.toDigits 10 e.1, (c != ':') = true := by
    intro c member
    rw [bne_iff_ne]
    rintro rfl
    exact absurd (digit_chars e.1 ':' member) (by decide)
  have stops : Meets (fun c => !(c != ':')) (':' :: Nat.toDigits 10 e.2) := fun c first => by cases first; rfl
  have cut : Text.cutAt? ':' (pairText e) = some (toString e.1, toString e.2) := by
    rw [Text.cutAt?, pair_chars, span_word _ digits stops, Nat.toString_eq_ofList_toDigits,
      Nat.toString_eq_ofList_toDigits]
  rw [readPair?, cut]
  simp only [Option.bind_eq_bind, Option.bind_some, nat_text_trimmed, read_nat_text fits.1.2, read_nat_text fits.2.2]
  rw [if_pos ⟨fits.1.1, fits.2.1⟩]

def ofPairs (pairs : List (Nat × Nat)) : LineMap := pairs.foldl (fun m e => m.insert e.1 e.2) {}

theorem add_lines_pairs (origins : List (Option Nat)) (m : LineMap) (g : Nat) :
    addLines m g origins = (numbered g origins).foldl (fun m e => m.insert e.1 e.2) m := by
  induction origins generalizing m g with
  | nil => rfl
  | cons origin rest ih =>
    cases origin with
    | none => exact ih m (g + 1)
    | some f => exact ih (m.insert g f) (g + 1)

variable {pairs : List (Nat × Nat)}

theorem add_entries_pairs (fits : ∀ e ∈ pairs, Fits e) (m : LineMap) :
    addEntries m (pairs.map pairText) = .ok (pairs.foldl (fun m e => m.insert e.1 e.2) m) := by
  induction pairs generalizing m with
  | nil => rfl
  | cons e rest ih =>
    rw [List.map_cons, addEntries, read_pair_text (fits e List.mem_cons_self)]
    exact ih (fun e member => fits e (List.mem_cons_of_mem _ member)) _

theorem parse_pairs (fits : ∀ e ∈ pairs, Fits e) : parse (Text.joinWith "," (pairs.map pairText)) = .ok (ofPairs pairs) := by
  cases pairs with
  | nil => rfl
  | cons e rest =>
    have entries : (((Text.splitBy "," (Text.joinWith "," ((e :: rest).map pairText))).map Text.trim).filter
        (!·.isEmpty)) = (e :: rest).map pairText := by
      have cut := Text.split_by_joined ',' ((e :: rest).map pairText) (by simp) (by
        intro part member comma
        obtain ⟨e, _, rfl⟩ := List.mem_map.mp member
        rcases pair_char comma with digit | colon
        · exact absurd digit (by decide)
        · exact absurd colon (by decide))
      rw [show "," = String.singleton ',' from rfl, cut, List.map_map,
        show Text.trim ∘ pairText = pairText from funext pair_text_trimmed, List.filter_eq_self]
      intro part member
      obtain ⟨e, _, rfl⟩ := List.mem_map.mp member
      have filled : pairText e ≠ "" := by
        intro blank
        have chars := pair_chars e
        rw [blank] at chars
        simp at chars
      simpa using filled
    rw [parse, entries]
    exact add_entries_pairs fits {}

-- A map is the map of its own pairs, so its text holds all of it.
theorem parse_render {origins : List (Option Nat)} (fits : ∀ e ∈ (ofOrigins origins).forward, Fits e) :
    parse (ofOrigins origins).render = .ok (ofOrigins origins) := by
  rw [render, parse_pairs fits, of_origins_forward, ofPairs, ofOrigins, add_lines_pairs]

end LineMap

end Flowstep.Code
