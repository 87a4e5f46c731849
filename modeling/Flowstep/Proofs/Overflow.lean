import Flowstep.Proofs.JsonNumbers
import Flowstep.Proofs.Refusal
import Flowstep.Proofs.Translation

/-!
A number that does not fit a word and is written into a program keeps the program from being read.
-/
namespace Flowstep.Code

open Flowstep.Flow (Fragment Input Output Step Statement Clause Gate LoopKind Variable)
open Script (Closed Overflows Meets endsNumber isSeparator isIdentifier joins)

-- Code that opens no quoted text without closing it.
def Sealed (text : String) : Prop := Closed text.toList

instance : DecidablePred Sealed := fun _ => inferInstanceAs (Decidable (Closed _))

variable {text front back sep : String}

theorem sealed_append (first : Sealed front) : Sealed (front ++ back) ↔ Sealed back := by
  rw [Sealed, String.toList_append, Script.closed_after first, Sealed]

theorem sealed_between (first : Sealed front) (middle : Sealed text) (last : Sealed back) : Sealed (front ++ text ++ back) :=
  (sealed_append ((sealed_append first).mpr middle)).mpr last

theorem sealed_joined (closed : Sealed sep) {parts : List String} (each : ∀ p ∈ parts, Sealed p) :
    Sealed (Text.joinWith sep parts) := by
  induction parts with
  | nil => rfl
  | cons part parts ih =>
    rw [List.forall_mem_cons] at each
    cases parts with
    | nil => simpa [Text.joinWith] using each.1
    | cons next parts =>
      rw [Text.join_with_cons]
      exact sealed_between each.1 closed (ih each.2)

theorem sealed_identifier {word : String} (valid : isIdentifier word) : Sealed word := by
  obtain ⟨⟨c, cs, split, starts, continues⟩, _, _⟩ := Script.identifier_word valid
  refine Script.closed_joins fun d member => ?_
  rw [split] at member
  have continued : Script.continuesName d := by
    rcases List.mem_cons.mp member with rfl | member
    · exact Script.starts_continues starts
    · exact continues d member
  rw [joins, continued]
  rfl

theorem sealed_key {key : String} (valid : loadableKey key) : Sealed key := by
  rw [← Context.key_path_join key]
  exact sealed_joined (by decide) fun word member => sealed_identifier (List.all_eq_true.mp valid word member)

theorem sealed_numerals (numerals : ∀ c ∈ text.toList, Decimal.isNumeral c) : Sealed text := by
  refine Script.closed_of_chars fun c member listed => ?_
  have never : ∀ c ∈ ['"', '\'', '#', '\r', '\\'], Decimal.isNumeral c = false := by decide
  exact absurd (numerals c member) (by rw [never c listed]; decide)

theorem sealed_nat (n : Nat) : Sealed (toString n) := sealed_numerals (Decimal.nat_numerals)

theorem sealed_quote (name : String) : Sealed (quote name) := by
  have kept (cs : List Char) : (cs.flatMap quotedChar).foldl Script.Quoting.next (.text '"') = .text '"' := by
    induction cs with
    | nil => rfl
    | cons c rest ih =>
      have here : (quotedChar c).foldl Script.Quoting.next (.text '"') = .text '"' := by
        unfold quotedChar
        split
        · rfl
        · rfl
        · rfl
        · rfl
        · rfl
        · rename_i quotes backslash _ _ _
          rw [List.foldl_cons, List.foldl_nil, Script.Quoting.next, if_neg backslash, if_neg quotes]
      rw [List.flatMap_cons, List.foldl_append, here, ih]
  rw [Sealed, quote, String.toList_ofList, Closed, List.cons_append, List.foldl_cons, List.foldl_append]
  change List.foldl _ (List.foldl _ (Script.Quoting.text '"') _) _ = _
  rw [kept]
  rfl

theorem sealed_global (name : String) : Sealed (globalRef name) :=
  sealed_between (by decide) (sealed_quote name) (by decide)

variable {good more : Prop}

-- Code that holds a number that does not fit unless the condition holds.
def Told (text : String) (good : Prop) : Prop := Sealed text ∧ (¬good → Overflows text.toList)

theorem told_weaken (told : Told text good) (implies : good → more) : Told text more :=
  ⟨told.1, fun fails => told.2 fun holds => fails (implies holds)⟩

theorem told_sealed (closed : Sealed text) (holds : good) : Told text good := ⟨closed, fun fails => absurd holds fails⟩

def Precedes (front : String) : Prop := Sealed front ∧ front.toList.getLast?.all isSeparator

instance : DecidablePred Precedes := fun _ => inferInstanceAs (Decidable (_ ∧ _))

def Follows (back : String) : Prop := Sealed back ∧ back.toList.head?.all endsNumber

instance : DecidablePred Follows := fun _ => inferInstanceAs (Decidable (_ ∧ _))

def Separates (sep : String) : Prop :=
  Sealed sep ∧ sep.toList.getLast?.any isSeparator ∧ sep.toList.head?.any endsNumber

instance : DecidablePred Separates := fun _ => inferInstanceAs (Decidable (_ ∧ _ ∧ _))

theorem precedes_append (closed : Sealed front) (ends : Sealed back ∧ back.toList.getLast?.any isSeparator) :
    Precedes (front ++ back) := by
  refine ⟨(sealed_append closed).mpr ends.1, ?_⟩
  rw [String.toList_append]
  cases last : back.toList.getLast? with
  | none =>
    rw [last] at ends
    cases ends.2
  | some c =>
    rw [last] at ends
    rw [List.getLast?_append, last]
    exact ends.2

theorem told_after (precedes : Precedes front) (told : Told text good) : Told (front ++ text) good := by
  refine ⟨(sealed_append precedes.1).mpr told.1, fun fails => ?_⟩
  rw [String.toList_append]
  exact Script.overflows_after precedes.1 precedes.2 (told.2 fails)

theorem told_between (precedes : Precedes front) (told : Told text good) (follows : Follows back) :
    Told (front ++ text ++ back) good := by
  have before := told_after precedes told
  refine ⟨(sealed_append before.1).mpr follows.1, fun fails => ?_⟩
  rw [String.toList_append]
  refine Script.overflows_before (fun c head => ?_) (before.2 fails)
  have ends := follows.2
  rwa [head] at ends

theorem told_both (separates : Separates sep) (first : Told front good) (second : Told back more) :
    Told (front ++ sep ++ back) (good ∧ more) := by
  obtain ⟨closed, last, head⟩ := separates
  have after := told_after (precedes_append first.1 ⟨closed, last⟩) second
  refine ⟨after.1, fun fails => ?_⟩
  by_cases holds : good
  · exact after.2 fun other => fails ⟨holds, other⟩
  · rw [String.append_assoc, String.toList_append]
    refine Script.overflows_before (fun c member => ?_) (first.2 holds)
    rw [String.toList_append] at member
    cases split : sep.toList with
    | nil =>
      rw [split] at head
      cases head
    | cons d rest =>
      rw [split] at member head
      cases member
      exact head

theorem told_call (closed : Sealed front) (told : Told text good) : Told (front ++ "(" ++ text ++ ")") good :=
  told_between (precedes_append closed (by decide)) told (by decide)

def Weighed (texts : List String) (good : Prop) : Prop :=
  (∀ t ∈ texts, Sealed t) ∧ (¬good → ∃ t ∈ texts, Overflows t.toList)

variable {texts : List String}

theorem weighed_weaken (weighed : Weighed texts good) (implies : good → more) : Weighed texts more :=
  ⟨weighed.1, fun fails => weighed.2 fun holds => fails (implies holds)⟩

theorem weighed_sealed (closed : ∀ t ∈ texts, Sealed t) (holds : good) : Weighed texts good :=
  ⟨closed, fun fails => absurd holds fails⟩

theorem weighed_nil (holds : good) : Weighed [] good := weighed_sealed (by simp) holds

theorem weighed_among (told : Told text good) (member : text ∈ texts) (closed : ∀ t ∈ texts, Sealed t) : Weighed texts good :=
  ⟨closed, fun fails => ⟨text, member, told.2 fails⟩⟩

theorem weighed_single (told : Told text good) : Weighed [text] good :=
  weighed_among told (List.mem_singleton_self _) (List.forall_mem_singleton.mpr told.1)

theorem weighed_append {others : List String} (weighed : Weighed texts good) (rest : Weighed others more) :
    Weighed (texts ++ others) (good ∧ more) := by
  refine ⟨List.forall_mem_append.mpr ⟨weighed.1, rest.1⟩, fun fails => ?_⟩
  by_cases holds : good
  · obtain ⟨t, member, overflows⟩ := rest.2 fun other => fails ⟨holds, other⟩
    exact ⟨t, List.mem_append_right _ member, overflows⟩
  · obtain ⟨t, member, overflows⟩ := weighed.2 holds
    exact ⟨t, List.mem_append_left _ member, overflows⟩

theorem weighed_each {α : Type} {xs : List α} {f : α → String} {p : α → Prop} (each : ∀ x ∈ xs, Told (f x) (p x)) :
    Weighed (xs.map f) (∀ x ∈ xs, p x) := by
  refine ⟨List.forall_mem_map.mpr fun x member => (each x member).1, fun fails => ?_⟩
  simp only [not_forall] at fails
  obtain ⟨x, member, fails⟩ := fails
  exact ⟨f x, List.mem_map_of_mem member, (each x member).2 fails⟩

theorem weighed_joined (separates : Separates sep) (weighed : Weighed texts good) : Told (Text.joinWith sep texts) good := by
  have joined : Told (Text.joinWith sep texts) (∀ t ∈ texts, ¬Overflows t.toList) := by
    have each := weighed.1
    clear weighed
    induction texts with
    | nil => exact told_sealed rfl (by simp)
    | cons t texts ih =>
      rw [List.forall_mem_cons] at each
      have first : Told t (¬Overflows t.toList) := ⟨each.1, not_not.mp⟩
      cases texts with
      | nil => simpa [Text.joinWith] using first
      | cons next texts =>
        rw [Text.join_with_cons, List.forall_mem_cons]
        exact told_both separates first (ih each.2)
  refine told_weaken joined fun none => ?_
  by_contra fails
  obtain ⟨t, member, overflows⟩ := weighed.2 fails
  exact none t member overflows

theorem overflows_number {sign cs : List Char} {c : Char} (signed : sign ∈ [[], ['-']]) (split : text.toList = sign ++ c :: cs)
    (digits : ∀ d ∈ c :: cs, Decimal.isDigit d) (large : 2 ^ 63 ≤ Decimal.natOfDigits (c :: cs)) : Overflows text.toList := by
  have ready : ∀ sign ∈ [[], ['-']], Closed sign ∧ Script.Ready sign := by
    unfold Script.Ready
    decide
  exact ⟨sign, c, cs, [], by simpa using split, (ready sign signed).1, (ready sign signed).2, digits, large, by simp [Meets]⟩

theorem told_int (n : Int) : Told (toString n) (-2 ^ 63 < n ∧ n < 2 ^ 63) := by
  refine ⟨sealed_numerals (Decimal.int_numerals n), fun unfit => ?_⟩
  have digits (sign : List Char) (m : Nat) (signed : sign ∈ [[], ['-']]) (large : 2 ^ 63 ≤ m)
      (split : (toString n).toList = sign ++ Nat.toDigits 10 m) : Overflows (toString n).toList := by
    obtain ⟨c, cs, here⟩ := List.exists_cons_of_ne_nil (Nat.toDigits_ne_nil)
    refine overflows_number signed (here ▸ split) (here ▸ Script.digit_chars m) ?_
    rw [← here, Script.nat_digits]
    exact large
  cases n with
  | ofNat m =>
    refine digits [] m (by simp) (by rw [Int.ofNat_eq_natCast] at unfit; omega) ?_
    exact Nat.toList_repr
  | negSucc m => exact digits ['-'] (m + 1) (by simp) (by omega) (Script.negative_chars m)

mutual

theorem told_literal {j : Json} (number : Json.finite j) : Told (literal j) (readable j) := by
  match j with
  | .null => exact told_sealed (by decide) rfl
  | .bool b => exact told_sealed (by cases b <;> decide) rfl
  | .str s => exact told_sealed (sealed_quote s) rfl
  | .float x => exact told_sealed (sealed_numerals (Decimal.write_numerals)) number
  | .int n =>
    rw [readable, Bool.and_eq_true, decide_eq_true_eq, decide_eq_true_eq]
    exact told_int n
  | .arr items => exact told_between (by decide) (weighed_joined (by decide) (weighed_items number)) (by decide)
  | .obj ⟨fields⟩ => exact told_between (by decide) (weighed_joined (by decide) (weighed_fields number)) (by decide)

theorem weighed_items {items : List Json} (number : Json.finiteItems items) : Weighed (literalItems items) (readableItems items) := by
  match items with
  | [] => exact weighed_nil rfl
  | j :: rest =>
    rw [Json.finiteItems, Bool.and_eq_true] at number
    rw [readableItems, Bool.and_eq_true]
    exact weighed_append (weighed_single (told_literal number.1)) (weighed_items number.2)

theorem weighed_fields {fields : List (String × Json)} (number : Json.finiteFields fields) :
    Weighed (literalFields fields) (readableFields fields) := by
  match fields with
  | [] => exact weighed_nil rfl
  | (k, j) :: rest =>
    rw [Json.finiteFields, Bool.and_eq_true] at number
    rw [readableFields, Bool.and_eq_true]
    exact weighed_append (weighed_single (told_after (precedes_append (sealed_quote k) (by decide)) (told_literal number.1)))
      (weighed_fields number.2)

end

theorem told_piece {f : Fragment} (named : namedFragment f) (number : f.tag.needsEvaluation = false → Json.finite f.data) :
    Told (Operand.piece f) (f.tag.needsEvaluation = false → readable f.data) := by
  obtain ⟨tag, data⟩ := f
  cases tag with
  | text | other | element => exact told_weaken (told_literal (number rfl)) fun reads _ => reads
  | globalVariable => exact told_sealed (sealed_global _) fun never => nomatch never
  | flowVariable | parameter => exact told_sealed (sealed_identifier named) fun never => nomatch never
  | expression => cases named

variable {fragments : List Fragment}

theorem told_operand (named : ∀ f ∈ fragments, namedFragment f) (number : ∀ j ∈ operandLiterals fragments, Json.finite j) :
    Told (Operand.ofFragments fragments).code (∀ j ∈ operandLiterals fragments, readable j) := by
  unfold operandLiterals at number ⊢
  unfold Operand.ofFragments
  split
  · rename_i needed
    rw [if_pos needed, known_forall] at number
    rw [known_forall]
    match fragments with
    | [] => cases needed
    | [f] =>
      rw [List.forall_mem_singleton] at number ⊢
      exact told_piece (named f (by simp)) number
    | f :: g :: rest =>
      refine weighed_joined (by decide) (weighed_each fun f member => ?_)
      exact told_between (by decide) (told_piece (named f member) (number f member)) (by decide)
  · rename_i known
    rw [if_neg known] at number
    match fragments with
    | [] | _ :: _ :: _ => exact told_sealed (sealed_quote _) (by simp)
    | [f] => exact told_weaken (told_literal (number _ (by simp))) fun reads => by simpa using reads

theorem told_input {key : String} {i : Input} {a : Argument} (made : Argument.ofInput key i = .ok a) (named : namedInput i)
    (number : ∀ j ∈ inputLiterals i, Json.finite j) : a.name = i.name ∧ Told a.code (∀ j ∈ inputLiterals i, readable j) := by
  rw [namedInput, Bool.and_eq_true] at named
  unfold inputLiterals at number ⊢
  by_cases parsed : i.parse = some "json_str"
  · rw [if_pos parsed] at number ⊢
    obtain rfl := held_argument made parsed
    exact ⟨rfl, told_weaken (told_literal (number _ (by simp))) fun reads => by simpa using reads⟩
  · unfold Argument.ofInput at made
    rw [if_neg parsed] at made number ⊢
    cases made
    simp only [parsed, decide_false, Bool.false_or, List.all_eq_true] at named
    refine ⟨rfl, ?_⟩
    cases Argument.referenceOf key i with
    | none => exact told_operand named.2 number
    | some r => exact told_call (by cases r <;> decide) (told_operand named.2 number)

theorem weighed_time {x : Float} (number : x.isFinite) (precedes : Precedes front) (follows : Follows back) :
    Weighed (if 0 < x then [front ++ Decimal.plain.write x ++ back] else []) (readableTime x) := by
  by_cases positive : 0 < x
  · rw [if_pos positive]
    refine weighed_single (told_between precedes ⟨sealed_numerals (Decimal.write_numerals), fun overflows => ?_⟩ follows)
    have above : ¬x < 9223372036854775808 := fun below => overflows (by simp [readableTime, below])
    obtain ⟨c, cs, split, digits, large⟩ := Decimal.time_overflow positive number above
    exact overflows_number (show [] ∈ [[], ['-']] by simp) split digits large
  · rw [if_neg positive]
    exact weighed_nil (never_readable positive)

structure Use.Numeric (u : Use) : Prop where
  literals : ∀ i ∈ u.inputs, ∀ j ∈ inputLiterals i, Json.finite j
  before : u.step.options.delayBefore.isFinite
  after : u.step.options.delayAfter.isFinite
  interval : u.step.options.retryInterval.isFinite

namespace Context

variable {c : Context} {s : Step} {level : Nat} {lines : List Line}

theorem weighed_arguments {given : List String} (made : arguments s = .ok given) (named : ∀ i ∈ s.shownInputs, namedInput i)
    (number : ∀ i ∈ s.shownInputs, ∀ j ∈ inputLiterals i, Json.finite j) :
    Weighed given (∀ i ∈ s.shownInputs, ∀ j ∈ inputLiterals i, readable j) := by
  unfold arguments at made
  generalize s.shownInputs = inputs at *
  induction inputs generalizing given with
  | nil =>
    cases made
    exact weighed_nil (by simp)
  | cons i rest ih =>
    rw [List.mapM_cons] at made
    obtain ⟨text, textMade, made⟩ := bind_ok made
    obtain ⟨others, othersMade, made⟩ := bind_ok made
    cases made
    rw [List.forall_mem_cons] at named number ⊢
    obtain ⟨a, read, textMade⟩ := map_ok textMade
    obtain ⟨name, told⟩ := told_input read named.1 number.1
    have word := named.1
    rw [namedInput, Bool.and_eq_true] at word
    rw [← textMade, Argument.text, name]
    exact weighed_append (weighed_single (told_after (precedes_append (sealed_identifier word.1) (by decide)) told))
      (ih othersMade named.2 number.2)

theorem weighed_options (c : Context) (before : s.options.delayBefore.isFinite) (after : s.options.delayAfter.isFinite) :
    Weighed (c.optionArguments s) (readableTime s.options.delayBefore ∧ readableTime s.options.delayAfter) := by
  have timed {opening : String} {x : Float} (number : x.isFinite) (precedes : Precedes opening) :
      Weighed (if 0 < x then [opening ++ Decimal.plain.write x] else []) (readableTime x) := by
    simpa using weighed_time number precedes (show Follows "" by decide)
  have flag (wanted : Bool) {word : String} (closed : Sealed word) : Weighed (if wanted then [word] else []) True :=
    weighed_sealed (by cases wanted <;> simp [closed]) trivial
  refine weighed_weaken (weighed_append (weighed_append (weighed_append (weighed_append (weighed_sealed ?_ trivial)
    (timed before (by decide))) (timed after (by decide))) (flag _ (by decide))) (flag _ (by decide))) ?_
  · cases s.options.onError <;> decide
  · rintro ⟨⟨⟨⟨_, before⟩, after⟩, _⟩, _⟩
    exact ⟨before, after⟩

theorem sealed_place (c : Context) (s : Step) : Sealed (c.place s) :=
  sealed_between (sealed_between (by decide) (sealed_nat _) (by decide)) (sealed_quote _) (by decide)

theorem told_step_call {call : String} (made : c.call s = .ok call) (named : (Use.call s).Named) (numeric : (Use.call s).Numeric) :
    Told call ((c.retries s → readableTime s.options.retryInterval) → (Use.call s).Fits c) := by
  obtain ⟨texts, argued, made⟩ := bind_ok made
  cases made
  have weighed := weighed_append (weighed_append (weighed_arguments argued named.inputs numeric.literals)
    (weighed_options c numeric.before numeric.after)) (weighed_single (told_sealed (sealed_place c s) trivial))
  refine told_weaken (told_call (sealed_key (named.key rfl)) (weighed_joined (by decide) weighed)) ?_
  rintro ⟨⟨literals, before, after⟩, _⟩ interval
  exact ⟨literals, fun _ => before, fun _ => after, fun _ => interval⟩

theorem fits_uncalled (c : Context) {u : Use} (uncalled : u.called = false)
    (literals : ∀ i ∈ u.inputs, ∀ j ∈ inputLiterals i, readable j) : u.Fits c := by
  have never : ¬u.called = true := by rw [uncalled]; decide
  exact ⟨literals, fun called => absurd called never, fun called => absurd called never,
    fun called => absurd called never⟩

theorem told_comparison {test : String} (made : c.comparison s = .ok test) (precedes : Precedes front)
    (named : (Use.test s).Named) (numeric : (Use.test s).Numeric) : Told (front ++ test ++ ":") ((Use.test s).Fits c) := by
  obtain ⟨texts, argued, made⟩ := bind_ok made
  cases made
  have weighed := weighed_append (weighed_arguments argued named.inputs numeric.literals)
    (weighed_single (told_sealed (sealed_place c s) trivial))
  have told := weighed_joined (show Separates ", " by decide) weighed
  exact told_between precedes (told_weaken (told_between (by decide) told (by decide)) fun ⟨literals, _⟩ => fits_uncalled c rfl literals) (by decide)

theorem sealed_record (c : Context) (s : Step) {status extra : String} (known : Sealed (", \"status\": \"" ++ status ++ "\""))
    (ends : Sealed extra) : Sealed (c.retryRecord s status extra) := by
  have place : Sealed ("\x7b\"unit\": " ++ quote c.unit ++ ", \"line\": " ++ toString s.line) :=
    (sealed_append (sealed_between (by decide) (sealed_quote _) (by decide))).mpr (sealed_nat _)
  have marked {a b d e : String} (first : Sealed a) (last : Sealed (b ++ d ++ e)) : Sealed (a ++ b ++ d ++ e) := by
    have grouped : a ++ b ++ d ++ e = a ++ (b ++ d ++ e) := by simp only [String.append_assoc]
    exact grouped ▸ (sealed_append first).mpr last
  exact sealed_between (marked (sealed_between place (by decide) (sealed_quote _)) known) ends (by decide)

theorem weighed_retry {statement : String}
    (told : Told statement ((c.retries s → readableTime s.options.retryInterval) → good)) (level : Nat)
    (number : s.options.retryInterval.isFinite) : Weighed (Code.texts (c.retryLines s level statement)) good := by
  have counter : Sealed ("__retry_count_" ++ toString s.line ++ "__") := sealed_between (by decide) (sealed_nat _) (by decide)
  have error : Sealed ("__e_" ++ toString s.line ++ "__") := sealed_between (by decide) (sealed_nat _) (by decide)
  have paused : Code.texts (if 0 < s.options.retryInterval then
      [⟨level + 2, "sleep(" ++ Decimal.plain.write s.options.retryInterval ++ ")", none⟩] else []) =
      if 0 < s.options.retryInterval then ["sleep(" ++ Decimal.plain.write s.options.retryInterval ++ ")"] else [] := by
    split <;> rfl
  unfold retryLines
  rw [texts_append, paused]
  refine weighed_weaken (weighed_append (weighed_among told (List.mem_of_getElem? (i := 4) rfl) ?_)
    (weighed_time number (by decide) (by decide))) fun fit => fit.1 fun _ => fit.2
  simp only [Code.texts, List.map_cons, List.map_nil, List.forall_mem_cons]
  exact ⟨sealed_between (by decide) (sealed_record c s (by decide) (by decide)) (by decide),
    sealed_between counter (by decide) (sealed_nat _), by decide, by decide, told.1, by decide,
    sealed_between (by decide) error (by decide), (sealed_append counter).mpr (by decide),
    sealed_between (by decide) counter (by decide),
    sealed_between (by decide) (sealed_record c s (by decide) (sealed_between (by decide) error (by decide))) (by decide), by decide,
    sealed_between (by decide) (sealed_record c s (by decide)
      (sealed_between (sealed_between (by decide) counter (by decide)) error (by decide))) (by decide), by simp⟩

theorem sealed_targets (c : Context) (outputs : ∀ o ∈ s.outputs, isIdentifier o.target) : ∀ t ∈ c.targets s, Sealed t := by
  unfold targets
  rw [List.forall_mem_map]
  intro o member
  unfold targetOf
  split
  · exact sealed_global _
  · exact sealed_identifier (outputs o member)

theorem weighed_call (made : c.callLines s level = .ok lines) (named : (Use.call s).Named) (numeric : (Use.call s).Numeric) :
    Weighed (Code.texts lines) ((Use.call s).Fits c) := by
  obtain ⟨call, callMade, made⟩ := bind_ok made
  have assigned : Precedes (c.assignment s) := by
    unfold assignment
    split
    · decide
    · exact precedes_append (sealed_joined (by decide) (sealed_targets c named.outputs)) (by decide)
  have told := told_after assigned (told_step_call callMade named numeric)
  split at made
  · cases made
    exact weighed_retry told level numeric.interval
  · rename_i once
    cases made
    exact weighed_single (told_weaken told fun fits => fits fun again => absurd again once)

theorem weighed_header {name : String} {header : String → String} (made : c.headerLines s level name header = .ok lines)
    (word : Sealed ("__" ++ name ++ "_")) (opens : ∀ code good, Told code good → Told (header code) good)
    (named : (Use.call s).Named) (numeric : (Use.call s).Numeric) : Weighed (Code.texts lines) ((Use.call s).Fits c) := by
  obtain ⟨call, callMade, made⟩ := bind_ok made
  have told := told_step_call callMade named numeric
  have result : Sealed ("__" ++ name ++ "_" ++ toString s.line ++ "__") :=
    sealed_between word (sealed_nat _) (by decide)
  split at made
  · cases made
    have equals : Sealed " = " ∧ " = ".toList.getLast?.any isSeparator := by decide
    have bound := weighed_retry (told_after (precedes_append result equals) told) level numeric.interval
    rw [texts_append]
    exact weighed_weaken (weighed_append bound (weighed_single (opens _ _ (told_sealed result trivial)))) And.left
  · rename_i once
    cases made
    exact weighed_single (opens _ _ (told_weaken told fun fits => fits fun again => absurd again once))

theorem weighed_branch {gate : Gate} (made : c.branchLines gate s level = .ok lines) (named : (Use.gate gate s).Named)
    (numeric : (Use.gate gate s).Numeric) : Weighed (Code.texts lines) ((Use.gate gate s).Fits c) := by
  cases gate with
  | call =>
    exact weighed_header made (by decide) (fun code good told => told_between (by decide) told (by decide)) named numeric
  | comparison =>
    obtain ⟨test, testMade, made⟩ := bind_ok made
    cases made
    exact weighed_single (told_comparison testMade (by decide) named numeric)

variable {code : String}

theorem told_loop_operand {name default : String} {position : Nat} (made : loopOperand s name position default = .ok code)
    (closed : Sealed default) (named : ∀ i ∈ (Use.chosen s name position).toList, namedInput i)
    (number : ∀ i ∈ (Use.chosen s name position).toList, ∀ j ∈ inputLiterals i, Json.finite j) :
    Told code (∀ i ∈ (Use.chosen s name position).toList, ∀ j ∈ inputLiterals i, readable j) := by
  unfold loopOperand at made
  unfold Use.chosen at *
  cases chosen : (s.input? name).or s.shownInputs[position]? with
  | none =>
    rw [chosen] at made
    cases made
    exact told_sealed closed (by simp)
  | some i =>
    rw [chosen] at made named number
    rw [Option.toList_some, List.forall_mem_singleton] at named number ⊢
    obtain ⟨a, read, rfl⟩ := map_ok made
    exact (told_input read named number).2

theorem sealed_pair {first second : String} (closed : Sealed first) (other : Sealed second) :
    Sealed ("for " ++ first ++ ", " ++ second) :=
  sealed_between ((sealed_append (by decide)).mpr closed) (by decide) other

theorem told_range (made : c.rangeHeader s = .ok code) (named : (Use.loop .range s).Named)
    (numeric : (Use.loop .range s).Numeric) : Told code ((Use.loop .range s).Fits c) := by
  obtain ⟨start, startMade, made⟩ := bind_ok made
  obtain ⟨stop, stopMade, made⟩ := bind_ok made
  obtain ⟨stride, strideMade, made⟩ := bind_ok made
  cases made
  have inputs := named.inputs
  have number := numeric.literals
  simp only [Use.loop, List.forall_mem_append] at inputs number
  have target : Sealed ((c.targets s).head?.getD "i") := by
    cases targets : c.targets s with
    | nil => decide
    | cons t rest => exact sealed_targets c named.outputs t (targets ▸ List.mem_cons_self)
  have first := told_loop_operand startMade (by decide) inputs.1.1 number.1.1
  have second := told_both (show Separates "), int_param(\"end\", " by decide) first
    (told_loop_operand stopMade (by decide) inputs.1.2 number.1.2)
  have third := told_both (show Separates "), int_param(\"step\", " by decide) second
    (told_loop_operand strideMade (by decide) inputs.2 number.2)
  have opening : Precedes ("for " ++ (c.targets s).head?.getD "i" ++ " in range(int_param(\"start\", ") :=
    precedes_append ((sealed_append (by decide)).mpr target) (by decide)
  have whole := told_between opening third (show Follows ")):" by decide)
  simp only [String.append_assoc] at whole ⊢
  refine told_weaken whole fun fits => fits_uncalled c rfl ?_
  simpa only [Use.loop, List.forall_mem_append] using fits

theorem told_list (made : c.listHeader s = .ok code) (named : (Use.loop .list s).Named)
    (numeric : (Use.loop .list s).Numeric) : Told code ((Use.loop .list s).Fits c) := by
  obtain ⟨items, itemsMade, made⟩ := bind_ok made
  have each : ∀ t ∈ c.targets s, Sealed t := sealed_targets c named.outputs
  have told := told_weaken (told_loop_operand itemsMade (by decide) named.inputs numeric.literals)
    fun fits => fits_uncalled c (u := Use.loop .list s) rfl fits
  have list := told_between (show Precedes "list_param(\"lists\", " by decide) told (show Follows ")" by decide)
  split at made
  · rename_i index item _ targets
    cases made
    rw [targets, List.forall_mem_cons, List.forall_mem_cons] at each
    exact told_between (precedes_append (sealed_pair each.1 each.2.1) (by decide)) list (by decide)
  · rename_i item targets
    cases made
    rw [targets, List.forall_mem_singleton] at each
    exact told_between (precedes_append ((sealed_append (by decide)).mpr each) (by decide)) list (by decide)
  · cases made
    exact told_between (by decide) list (by decide)

theorem told_map (made : c.mapHeader s = .ok code) (named : (Use.loop .map s).Named)
    (numeric : (Use.loop .map s).Numeric) : Told code ((Use.loop .map s).Fits c) := by
  obtain ⟨entries, entriesMade, made⟩ := bind_ok made
  have each : ∀ t ∈ c.targets s, Sealed t := sealed_targets c named.outputs
  have told := told_weaken (told_loop_operand entriesMade (by decide) named.inputs numeric.literals)
    fun fits => fits_uncalled c (u := Use.loop .map s) rfl fits
  dsimp only at made
  split at made
  · rename_i key value _ targets
    cases made
    rw [targets, List.forall_mem_cons, List.forall_mem_cons] at each
    exact told_between (precedes_append (sealed_pair each.1 each.2.1) (by decide)) told (by decide)
  · cases made
    exact told_between (by decide) told (by decide)

theorem weighed_loop {kind : LoopKind} (made : c.loopLines kind s level = .ok lines) (named : (Use.loop kind s).Named)
    (numeric : (Use.loop kind s).Numeric) : Weighed (Code.texts lines) ((Use.loop kind s).Fits c) := by
  cases kind with
  | «while» =>
    obtain ⟨test, testMade, made⟩ := bind_ok made
    cases made
    exact weighed_single (told_comparison testMade (by decide) named numeric)
  | call =>
    have items : Sealed (c.itemTargets s) := by
      unfold itemTargets
      split
      · exact sealed_between (by decide) (sealed_nat _) (by decide)
      · exact sealed_joined (by decide) (sealed_targets c named.outputs)
    exact weighed_header made (by decide) (fun code good told =>
      told_between (precedes_append ((sealed_append (by decide)).mpr items) (by decide)) told (by decide)) named numeric
  | range =>
    obtain ⟨header, headerMade, made⟩ := bind_ok made
    cases made
    exact weighed_single (told_range headerMade named numeric)
  | list =>
    obtain ⟨header, headerMade, made⟩ := bind_ok made
    cases made
    exact weighed_single (told_list headerMade named numeric)
  | map =>
    obtain ⟨header, headerMade, made⟩ := bind_ok made
    cases made
    exact weighed_single (told_map headerMade named numeric)

end Context

def Sound (uses : List Use) : Prop := ∀ u ∈ uses, u.Named ∧ u.Numeric

def AllFit (c : Context) (uses : List Use) : Prop := ∀ u ∈ uses, u.Fits c

def Weighs (c : Context) (uses : List Use) (lines : List Line) : Prop :=
  Sound uses → Weighed (Code.texts lines) (AllFit c uses)

section

variable {c : Context} {uses : List Use} {lines : List Line}

theorem weighs_append {others : List Use} {more : List Line} (first : Weighs c uses lines) (second : Weighs c others more) :
    Weighs c (uses ++ others) (lines ++ more) := by
  intro sound
  rw [Sound, List.forall_mem_append] at sound
  rw [texts_append, AllFit, List.forall_mem_append]
  exact weighed_append (first sound.1) (second sound.2)

theorem weighs_use {u : Use} (weighed : u.Named → u.Numeric → Weighed (Code.texts lines) (u.Fits c)) : Weighs c [u] lines := by
  intro sound
  rw [Sound, List.forall_mem_singleton] at sound
  rw [AllFit, List.forall_mem_singleton]
  exact weighed sound.1 sound.2

theorem weighs_sealed (closed : ∀ t ∈ Code.texts lines, Sealed t) : Weighs c [] lines :=
  fun _ => weighed_sealed closed (by simp [AllFit])

theorem weighs_word (indent : Nat) (origin : Option Nat) (closed : Sealed text) : Weighs c [] [⟨indent, text, origin⟩] :=
  weighs_sealed (List.forall_mem_singleton.mpr closed)

theorem weighs_closer (level : Nat) (closing : Option Step) : Weighs c [] (closerLine level closing) := by
  cases closing with
  | none => exact weighs_sealed (by simp [closerLine, Code.texts])
  | some s => exact weighs_word _ _ (by decide)

theorem weighs_missing (level : Nat) (handler final : Option Clause) : Weighs c [] (missingClause level handler final) := by
  unfold missingClause
  split
  · exact weighs_append (weighs_word _ _ (by decide)) (weighs_word _ _ (by decide))
  · exact weighs_sealed (by simp [Code.texts])

end

def outcomeMotive (c : Context) : Motive where
  statement _ s lines := Weighs c (statementUses s) lines
  all _ block lines := Weighs c (blockUses block) lines
  block _ block lines := Weighs c (blockUses block) lines
  alternatives _ clauses lines := Weighs c (clausesUses clauses) lines
  clause _ header clause lines := Sealed header → Weighs c (clauseUses clause) lines

theorem outcome_kept (c : Context) : (outcomeMotive c).Kept c where
  atomic made := weighs_use (Context.weighed_call made)
  «break» _ _ := weighs_word _ _ (by decide)
  «continue» _ _ := weighs_word _ _ (by decide)
  «return» _ _ := weighs_word _ _ (by decide)
  branch indent closing header _ _ body alternatives otherwise := by
    have opened := weighs_append (weighs_append (weighs_use (Context.weighed_branch header)) body) alternatives
    have whole := weighs_append (weighs_append opened (otherwise (by decide))) (weighs_closer indent closing)
    simpa [outcomeMotive, statementUses] using whole
  loop indent closing header _ body := by
    have whole := weighs_append (weighs_append (weighs_use (Context.weighed_loop header)) body) (weighs_closer indent closing)
    simpa [outcomeMotive, statementUses] using whole
  attempt indent step handler final closing _ _ body handles finishes := by
    have opened := weighs_append (weighs_word indent (some step.line) (show Sealed "try:" by decide)) body
    have whole := weighs_append (weighs_append (weighs_append (weighs_append opened (handles (by decide))) (finishes (by decide)))
      (weighs_missing indent handler final)) (weighs_closer indent closing)
    simpa [outcomeMotive, statementUses] using whole
  nil _ := weighs_sealed (by simp [Code.texts])
  cons _ first others := weighs_append first others
  empty _ := weighs_word _ _ (by decide)
  filled all := all
  done _ := weighs_sealed (by simp [Code.texts])
  elif {step _ _ _ _ _} indent test _ body others := by
    have opened : Weighs c [.test step] [⟨indent, "elif " ++ _ ++ ":", some step.line⟩] :=
      weighs_use fun named numeric => weighed_single (Context.told_comparison test (by decide) named numeric)
    simpa [outcomeMotive, clausesUses] using weighs_append (weighs_append opened body) others
  absent _ _ _ := weighs_sealed (by simp [Code.texts])
  present body closed := weighs_append (weighs_word _ _ closed) body

theorem told_load {v : Variable} (named : namedVariable v) (number : ∀ j ∈ variableLiterals v, Json.finite j) :
    Told (loadText v) (∀ j ∈ variableLiterals v, readable j) := by
  rw [namedVariable, Bool.and_eq_true, List.all_eq_true] at named
  have opening : Precedes (v.name ++ " = args.get(" ++ quote v.name ++ ", ") :=
    precedes_append (sealed_between (sealed_identifier named.1) (by decide) (sealed_quote _)) (by decide)
  exact told_between opening (told_operand named.2 number) (by decide)

variable {params : List Variable}

def NumbersFit (c : Context) (params : List Variable) (statements : List Statement) : Prop :=
  (∀ v ∈ params, ∀ j ∈ variableLiterals v, readable j) ∧ AllFit c (blockUses statements)

instance (c : Context) (params : List Variable) (statements : List Statement) :
    Decidable (NumbersFit c params statements) :=
  inferInstanceAs (Decidable ((∀ v ∈ params, ∀ j ∈ variableLiterals v, readable j) ∧ ∀ u ∈ blockUses statements, u.Fits c))

variable {statements : List Statement} {lines : List Line}

theorem program_weighed {c : Context} (made : program c params statements = .ok lines)
    (sound : Sound (blockUses statements)) (named : ∀ v ∈ params, namedVariable v)
    (number : ∀ v ∈ params, ∀ j ∈ variableLiterals v, Json.finite j) :
    Weighed (Code.texts lines) (NumbersFit c params statements) := by
  obtain ⟨flow, flowMade, made⟩ := bind_ok made
  cases made
  have word (text : String) (closed : Sealed text) : Weighed [text, "pass"] True := weighed_sealed (by simp +decide [closed]) trivial
  have opening : Weighed ["def main(args):"] True := weighed_sealed (by decide) trivial
  have loads := weighed_each fun v member => told_load (named v member) (number v member)
  have body := (outcomeMotive c).all_emitted (outcome_kept c) 2 statements flow flowMade sound
  have written : Weighed ((outputs params).map writeBackText) True := by
    refine weighed_sealed (List.forall_mem_map.mpr fun v member => ?_) trivial
    have valid := named v (List.mem_of_mem_filter member)
    rw [namedVariable, Bool.and_eq_true] at valid
    exact (sealed_append (sealed_between (by decide) (sealed_quote _) (by decide))).mpr (sealed_identifier valid.1)
  have whole := weighed_append (weighed_append (weighed_append (weighed_append (weighed_append opening loads)
    (word "try:" (by decide))) body) (word "finally:" (by decide))) written
  have fits : Weighed _ (NumbersFit c params statements) :=
    weighed_weaken whole fun fit => ⟨fit.1.1.1.1.2, fit.1.1.2⟩
  simpa [Code.texts, Function.comp_def] using fits

theorem told_render (width : Nat) (weighed : Weighed (Code.texts lines) good) : Told (render width lines) good := by
  have indent (l : Line) : Precedes ("".pushn ' ' (l.indent * width)) := by
    unfold Precedes Sealed
    rw [Text.spaces_chars]
    refine ⟨Script.closed_of_chars fun c member => ?_, ?_⟩
    · rw [List.eq_of_mem_replicate member]
      decide
    · rw [List.getLast?_replicate]
      split <;> decide
  refine weighed_joined (by decide) ⟨List.forall_mem_map.mpr fun l member => ?_, fun fails => ?_⟩
  · exact (sealed_append (indent l).1).mpr (weighed.1 _ (List.mem_map_of_mem member))
  · obtain ⟨text, member, overflows⟩ := weighed.2 fails
    obtain ⟨l, inside, rfl⟩ := List.mem_map.mp member
    refine ⟨l.render width, List.mem_map_of_mem inside, ?_⟩
    rw [Line.render, String.toList_append]
    exact Script.overflows_after (indent l).1 (indent l).2 overflows

theorem program_reads {c : Context} {width : Nat} (wide : 1 ≤ width)
    (made : program c params statements = .ok lines) (sound : Sound (blockUses statements))
    (named : ∀ v ∈ params, namedVariable v) (number : ∀ v ∈ params, ∀ j ∈ variableLiterals v, Json.finite j)
    (read : Script.Program) : Script.Program.parse (render width lines) = .ok read ↔
      NumbersFit c params statements ∧ read = translateProgram c params statements := by
  by_cases fits : NumbersFit c params statements
  · have reads : ReadableUses c (blockUses statements) := fun u member => ⟨(sound u member).1, fits.2 u member⟩
    have declared (v : Variable) (member : v ∈ params) : readableVariable v := by
      rw [readableVariable, Bool.and_eq_true, List.all_eq_true]
      exact ⟨named v member, fits.1 v member⟩
    rw [Script.parse_written width wide (program_lines_present made)
      (written_program made reads declared), Except.ok.injEq]
    exact ⟨fun same => ⟨fits, same.symm⟩, fun found => found.2.symm⟩
  · obtain ⟨e, refused⟩ := Script.parse_overflows ((told_render width (program_weighed made sound named number)).2 fits)
    rw [refused]
    exact ⟨fun never => absurd never (by simp), fun found => absurd found.1 fits⟩

end Flowstep.Code
