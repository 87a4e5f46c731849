import Flowstep.Proofs.Refusal
import Mathlib.Data.List.Find

/-!
How wide lines are indented changes nothing in the program.
-/
namespace Flowstep.Script

-- What stands between the ends of two lines: no end of a line, and no backslash that joins it to the next.
def Whole (cs : List Char) : Prop := '\n' ∉ cs ∧ ¬['\\'] <:+ cs

variable {c : Char} {cs rest tail : List Char}

theorem whole_suffix (whole : Whole cs) (suffix : rest <:+ cs) : Whole rest :=
  ⟨fun member => whole.1 (suffix.subset member), fun last => whole.2 (last.trans suffix)⟩

theorem tail_cases (ends : Meets endsLine tail) : tail = [] ∨ ∃ rest, tail = '\n' :: rest := by
  cases tail with
  | nil => exact .inl rfl
  | cons d rest =>
    have feed : d = '\n' := by simpa [endsLine] using ends d rfl
    exact .inr ⟨rest, by rw [feed]⟩

theorem span_line {p : Char → Bool} (feed : p '\n' = false) (ends : Meets endsLine tail) (cs : List Char) :
    (cs ++ tail).span p = ((cs.span p).1, (cs.span p).2 ++ tail) := by
  induction cs with
  | nil => rcases tail_cases ends with rfl | ⟨rest, rfl⟩ <;> simp [feed]
  | cons c cs ih =>
    cases holds : p c with
    | true => simpa [holds] using ih
    | false => simp [holds]

theorem drop_line (flat : '\n' ∉ cs) (ends : Meets endsLine tail) : (cs ++ tail).dropWhile (· ≠ '\n') = tail := by
  have all : ∀ d ∈ cs, decide (d ≠ '\n') := by
    intro d member
    rw [decide_eq_true_eq]
    rintro rfl
    exact flat member
  rw [List.dropWhile_append_of_pos all]
  rcases tail_cases ends with rfl | ⟨rest, rfl⟩ <;> simp

theorem fraction_line (ends : Meets endsLine tail) (cs : List Char) :
    fractionDigits (cs ++ tail) = ((fractionDigits cs).1, (fractionDigits cs).2 ++ tail) := by
  cases cs with
  | nil => rcases tail_cases ends with rfl | ⟨rest, rfl⟩ <;> rfl
  | cons c cs =>
    rw [List.cons_append]
    by_cases point : c = '.'
    · have head : (cs ++ tail).head?.any startsName = cs.head?.any startsName := by
        cases cs with
        | nil => rcases tail_cases ends with rfl | ⟨rest, rfl⟩ <;> rfl
        | cons d cs => rfl
      rw [point, fractionDigits, fractionDigits, head, span_line (by decide) ends]
      split <;> rfl
    · simp [fractionDigits, point]

theorem exponent_line (ends : Meets endsLine tail) (cs : List Char) :
    exponentDigits (cs ++ tail) = ((exponentDigits cs).1, (exponentDigits cs).2 ++ tail) := by
  have digits := span_line (p := Decimal.isDigit) (by decide) ends
  cases cs with
  | nil => rcases tail_cases ends with rfl | ⟨rest, rfl⟩ <;> rfl
  | cons c cs =>
    cases cs with
    | nil => rcases tail_cases ends with rfl | ⟨rest, rfl⟩ <;> simp [exponentDigits, Decimal.isDigit]
    | cons d cs =>
      have sign : d = '+' ∨ d = '-' ∨ d ≠ '+' ∧ d ≠ '-' := by tauto
      rcases sign with rfl | rfl | ⟨plus, minus⟩
      all_goals
        rw [List.cons_append, List.cons_append, exponentDigits, exponentDigits, ← List.cons_append, digits]
      all_goals grind

theorem number_line (line : Nat) (ends : Meets endsLine tail) (cs : List Char) :
    numberToken line (cs ++ tail) = (numberToken line cs).map fun r => (r.1, r.2 ++ tail) := by
  unfold numberToken
  rw [span_line (by decide) ends]
  dsimp only
  rw [fraction_line ends]
  rw [exponent_line ends]
  dsimp only
  split
  · split <;> rfl
  · split <;> rfl

theorem quoted_line {quote : Char} (mark : quote ≠ '\n') (ends : Meets endsLine tail) (start line : Nat) (read : List Char)
    (whole : Whole cs) : quotedBody quote start read line (cs ++ tail) =
      (quotedBody quote start read line cs).map fun r => (r.1, r.2.1 ++ tail, r.2.2) := by
  have other {c : Char} {cs : List Char} (backslash : c = '\\' → cs = [] → False)
      (escape : ∀ d rest, c = '\\' → cs = d :: rest → False) : c ≠ '\\' := by
    rintro rfl
    cases cs with
    | nil => exact backslash rfl rfl
    | cons d rest => exact escape d rest rfl rfl
  fun_induction quotedBody quote start read line cs with
  | case1 =>
    rcases tail_cases ends with rfl | ⟨rest, rfl⟩
    · rfl
    · simp [quotedBody, Ne.symm mark, malformed, Except.map]
  | case2 => exact absurd (List.suffix_refl _) whole.2
  | case3 _ _ _ ih | case4 _ _ _ ih | case5 _ _ _ ih | case6 _ _ _ ih | case7 _ _ _ ih | case8 _ _ _ ih | case9 _ _ _ ih =>
    exact ih (whole_suffix whole ⟨[_, _], rfl⟩)
  | case10 | case13 => simp [Whole] at whole
  | case11 =>
    rename_i ih
    rw [List.cons_append, List.cons_append, quotedBody]
    · exact ih (whole_suffix whole ⟨[_, _], rfl⟩)
    all_goals assumption
  | case12 _ _ _ last _ _ _ _ _ _ _ _ escape =>
    rw [List.cons_append, quoted_body_other _ _ _ (other last escape), if_pos rfl]
    rfl
  | case14 _ _ _ _ last _ _ _ _ _ _ _ _ escape unlike feed ih =>
    rw [List.cons_append, quoted_body_other _ _ _ (other last escape), if_neg unlike, if_neg feed]
    exact ih (whole_suffix whole ⟨[_], rfl⟩)

theorem operator_line (ends : Meets endsLine tail) (cs : List Char) : Lexer.operatorAt? (cs ++ tail) = Lexer.operatorAt? cs := by
  have plain : ∀ op ∈ operators, '\n' ∉ op.toList := by decide
  refine List.find?_congr fun op listed => ?_
  have flat := plain op listed
  generalize op.toList = symbol at flat
  induction symbol generalizing cs with
  | nil => rw [List.isPrefixOf, List.isPrefixOf]
  | cons c symbol ih =>
    rw [List.mem_cons, not_or] at flat
    cases cs with
    | nil =>
      rcases tail_cases ends with rfl | ⟨rest, rfl⟩
      · rfl
      · simp [List.isPrefixOf, Ne.symm flat.1]
    | cons d cs => rw [List.cons_append, List.isPrefixOf, List.isPrefixOf, ih cs flat.2]

namespace Lexer

def resumed (l : Lexer) (rest : List Char) (indents : List Nat) : Lexer := inside rest l.line l.depth indents l.read

variable (l : Lexer) (indents : List Nat)

theorem operator_step_line (ends : Meets endsLine tail) (indents : List Nat) : (l.resumed (cs ++ tail) indents).operatorStep c =
      ((l.resumed cs []).operatorStep c).map fun n => n.resumed (n.rest ++ tail) indents := by
  dsimp only [operatorStep, resumed, inside]
  rw [operator_line ends cs]
  cases found : operatorAt? cs with
  | none => rfl
  | some op =>
    have starts : op.toList.isPrefixOf cs := List.find?_some (p := fun op : String => op.toList.isPrefixOf cs) found
    have fits := (List.isPrefixOf_iff_prefix.mp starts).length_le
    rw [String.length_toList] at fits
    dsimp only
    rw [List.drop_append_of_le_length fits]
    split
    · rfl
    · split
      · split <;> rfl
      · rfl

-- What is read from a line does not depend on what follows the line.
theorem token_step_line (whole : Whole (c :: cs)) (ends : Meets endsLine tail) (indents : List Nat) :
    (l.resumed (c :: (cs ++ tail)) indents).tokenStep =
      (l.resumed (c :: cs) []).tokenStep.map fun n => n.resumed (n.rest ++ tail) indents := by
  have feed : c ≠ '\n' := fun same => whole.1 (by simp [same])
  have joint (tail : List Char) (same : c = '\\') (after : List Char) : cs ++ tail ≠ '\n' :: after := by
    subst same
    cases cs with
    | nil => exact absurd (List.suffix_refl _) whole.2
    | cons d cs =>
      intro same
      exact whole.1 (by rw [(List.cons.inj same).1]; simp)
  have alone := joint []
  rw [List.append_nil] at alone
  rw [token_step_other _ c rfl feed (joint tail), token_step_other _ c rfl feed alone]
  dsimp only [resumed, inside]
  split
  · rfl
  · split
    · have flat : '\n' ∉ cs := fun member => whole.1 (List.mem_cons_of_mem c member)
      have ended : (cs ++ []).dropWhile (· ≠ '\n') = [] := drop_line flat (by simp [Meets])
      rw [List.append_nil] at ended
      rw [drop_line flat ends, ended]
      rfl
    · split
      · rw [quoted_line feed ends _ _ _ (whole_suffix whole ⟨[c], rfl⟩)]
        cases quotedBody c l.line [] l.line cs <;> rfl
      · split
        · rw [← List.cons_append, number_line _ ends]
          cases numberToken l.line (c :: cs) <;> rfl
        · split
          · rw [← List.cons_append, span_line (by decide) ends]
            rfl
          · rw [← List.cons_append]
            exact operator_step_line l ends indents

theorem lex_line (whole : Whole cs) :
    (∃ e, ∀ tail indents, Meets endsLine tail → (l.resumed (cs ++ tail) indents).lex = .error e) ∨
      ∃ next : Lexer, ∀ tail indents, Meets endsLine tail →
        (l.resumed (cs ++ tail) indents).lex = (next.resumed tail indents).lex := by
  induction size : cs.length using Nat.strongRecOn generalizing l cs with
  | ind n ih =>
    cases cs with
    | nil => exact .inr ⟨l, fun _ _ _ => rfl⟩
    | cons c cs =>
      have stepped (tail : List Char) (indents : List Nat) (ends : Meets endsLine tail) :
          (l.resumed (c :: cs ++ tail) indents).step = _ := token_step_line l whole ends indents
      cases done : (l.resumed (c :: cs) []).tokenStep with
      | error e =>
        refine .inl ⟨e, fun tail indents ends => lex_fails (by simp [resumed, inside]) ?_⟩
        rw [stepped tail indents ends, done]
        rfl
      | ok next =>
        obtain ⟨front, split, takes⟩ := token_step_takes (by simp [resumed, inside]) done
        have split : c :: cs = front ++ next.rest := split
        have shorter : next.rest.length < n := by
          have filled := List.length_pos_iff.mpr (takes_filled takes)
          rw [← size, split, List.length_append]
          omega
        have follows (tail : List Char) (indents : List Nat) (ends : Meets endsLine tail) :
            (l.resumed (c :: cs ++ tail) indents).lex = (next.resumed (next.rest ++ tail) indents).lex := by
          refine lex_step (by simp [resumed, inside]) ?_
          rw [stepped tail indents ends, done]
          rfl
        rcases ih _ shorter next (whole_suffix whole ⟨front, split.symm⟩) rfl with ⟨e, fails⟩ | ⟨last, reads⟩
        · exact .inl ⟨e, fun tail indents ends => (follows tail indents ends).trans (fails tail indents ends)⟩
        · exact .inr ⟨last, fun tail indents ends => (follows tail indents ends).trans (reads tail indents ends)⟩

def scaled (width : Nat) (indents : List Nat) : List Nat := indents.map (· * width)

variable {width : Nat}

theorem scaled_head (width : Nat) (indents : List Nat) : (scaled width indents).head?.getD 0 = indents.head?.getD 0 * width := by
  cases indents with
  | nil => exact (Nat.zero_mul width).symm
  | cons _ _ => rfl

theorem close_blocks_scaled (wide : 1 ≤ width) (indent line : Nat) (indents : List Nat) (read : List Located) :
    closeBlocks (indent * width) line (scaled width indents) read =
      (scaled width (closeBlocks indent line indents read).1, (closeBlocks indent line indents read).2) := by
  induction indents generalizing read with
  | nil => rfl
  | cons level indents ih =>
    have less : indent * width < level * width ↔ indent < level := Nat.mul_lt_mul_right wide
    rw [scaled, List.map_cons, closeBlocks, closeBlocks, if_congr less rfl rfl]
    split
    · exact ih _
    · rfl

theorem finish_scaled (wide : 1 ≤ width) (indents : List Nat) :
    { l with indents := scaled width indents }.finish = { l with indents }.finish := by
  have closed (read : List Located) := congrArg Prod.snd (close_blocks_scaled wide 0 l.line indents read)
  rw [Nat.zero_mul] at closed
  unfold finish endLine
  split
  · rfl
  · cases l.read with
    | nil => exact congrArg (fun read => Except.ok (_ :: read).reverse) (closed [])
    | cons t read =>
      dsimp only
      split
      · exact congrArg (fun read => Except.ok (_ :: read).reverse) (closed _)
      · exact congrArg (fun read => Except.ok (_ :: read).reverse) (closed _)

theorem lay_out_scaled (rest : List Char) (line indent : Nat) (indents : List Nat) (read : List Located) (wide : 1 ≤ width) :
    (lineStart rest line (scaled width indents) read).layOut (indent * width) =
      ((lineStart [] line indents read).layOut indent).map fun n => lineStart rest n.line (scaled width n.indents) n.read := by
  have laid (rest : List Char) (indents : List Nat) (width : Nat) : (lineStart rest line indents read).layOut width =
      if indents.head?.getD 0 < width then .ok (lineStart rest line (width :: indents) (⟨.indent, line⟩ :: read))
      else if (closeBlocks width line indents read).1.head?.getD 0 = width then
        .ok (lineStart rest line (closeBlocks width line indents read).1 (closeBlocks width line indents read).2)
      else malformed line "unindent does not match any outer level" := rfl
  have less (a b : Nat) : a * width < b * width ↔ a < b := Nat.mul_lt_mul_right wide
  have same (a b : Nat) : a * width = b * width ↔ a = b := Nat.mul_left_inj (Nat.ne_of_gt wide)
  rw [laid, laid, close_blocks_scaled wide, scaled_head, scaled_head, if_congr (less _ _) rfl rfl, if_congr (same _ _) rfl rfl]
  split
  · rfl
  · split <;> rfl

-- One outcome for all widths.
def Steady (state : Nat → Lexer) : Prop := ∃ outcome, ∀ width, 1 ≤ width → (state width).lex >>= finish = outcome

theorem steady_of_lex {state other : Nat → Lexer} (same : ∀ width, 1 ≤ width → (state width).lex = (other width).lex)
    (steady : Steady other) : Steady state := by
  obtain ⟨outcome, all⟩ := steady
  exact ⟨outcome, fun width wide => by rw [same width wide, all width wide]⟩

theorem steady_fails {state : Nat → Lexer} (e : Error) (fails : ∀ width, 1 ≤ width → (state width).lex = .error e) :
    Steady state :=
  ⟨.error e, fun width wide => by rw [fails width wide]; rfl⟩

theorem steady_ends (empty : l.rest = []) : Steady fun width => { l with indents := scaled width indents } := by
  refine ⟨{ l with indents }.finish, fun width wide => ?_⟩
  rw [← finish_scaled l wide indents]
  exact congrArg (· >>= finish) (lex_done (l := { l with indents := scaled width indents }) empty)

theorem steady_line {tail : Nat → List Char} (whole : Whole cs) (ends : ∀ width, Meets endsLine (tail width))
    (after : ∀ next : Lexer, Steady fun width => next.resumed (tail width) (scaled width indents)) :
    Steady fun width => l.resumed (cs ++ tail width) (scaled width indents) := by
  rcases lex_line l whole with ⟨e, fails⟩ | ⟨next, reads⟩
  · exact steady_fails e fun width _ => fails _ _ (ends width)
  · exact steady_of_lex (fun width _ => reads _ _ (ends width)) (after next)

theorem lex_spaces (count : Nat) (rest : List Char) (indents : List Nat) :
    (l.resumed (List.replicate count ' ' ++ rest) indents).lex = (l.resumed rest indents).lex := by
  induction count with
  | zero => rfl
  | succ count ih =>
    rw [← ih]
    exact lex_step (by simp [resumed, inside]) rfl

end Lexer

open Code (Line)

def following (width : Nat) (lines : List Line) : List Char := lines.flatMap fun l => '\n' :: (l.render width).toList

theorem following_ends (width : Nat) (lines : List Line) : Meets endsLine (following width lines) := by
  cases lines with
  | nil => simp [Meets, following]
  | cons l lines => simp [Meets, following, endsLine]

theorem render_chars (width : Nat) (l : Line) (lines : List Line) :
    (Code.render width (l :: lines)).toList = (l.render width).toList ++ following width lines := by
  induction lines generalizing l with
  | nil => exact (List.append_nil _).symm
  | cons next lines ih =>
    have joined := Text.join_with_cons "\n" (l.render width) (next.render width) (lines.map (Line.render width))
    rw [Code.render, List.map_cons, List.map_cons, joined, String.toList_append, String.toList_append, List.append_assoc]
    exact congrArg (_ ++ '\n' :: ·) (ih next)

namespace Lexer

theorem lex_line_end (l : Lexer) (rest : List Char) (indents : List Nat) :
    (l.resumed ('\n' :: rest) indents).lex =
      if l.depth = 0 then (lineStart rest (l.line + 1) indents l.endLine.read).lex
      else ({ l with line := l.line + 1 }.resumed rest indents).lex := by
  rw [← apply_ite lex]
  refine lex_step (by simp [resumed, inside]) ?_
  change (l.resumed ('\n' :: rest) indents).tokenStep = _
  obtain ⟨_, line, depth, _, read, _⟩ := l
  cases depth with
  | zero =>
    cases read with
    | nil => rfl
    | cons t read => cases newline : t.token.isNewline <;> simp [tokenStep, resumed, inside, lineStart, endLine, push, newline]
  | succ depth => rfl

theorem start_steady (line indent : Nat) {indents : List Nat} {read : List Located} {tail : Nat → List Char}
    (whole : Whole (c :: cs)) (space : c ≠ ' ') (tab : c ≠ '\t') (ends : ∀ width, Meets endsLine (tail width))
    (skipped : Steady fun width => (lineStart (tail width) line (scaled width indents) read).skipLine)
    (after : ∀ (next : Lexer) (indents : List Nat), Steady fun width => next.resumed (tail width) (scaled width indents)) :
    Steady fun width => lineStart (List.replicate (indent * width) ' ' ++ (c :: cs ++ tail width)) line (scaled width indents) read := by
  have stepped (width : Nat) : (lineStart (List.replicate (indent * width) ' ' ++ (c :: cs ++ tail width)) line
      (scaled width indents) read).step =
        if isBlankLine [c] then .ok (lineStart (tail width) line (scaled width indents) read).skipLine
        else (lineStart (c :: cs ++ tail width) line (scaled width indents) read).layOut (indent * width) >>= fun l =>
          { l with atLineStart := false }.tokenStep := by
    have measured := measure_spaces 0 (indent * width) (cs ++ tail width) space tab
    rw [Nat.zero_add] at measured
    unfold step
    rw [if_pos (by rfl)]
    dsimp only [lineStart]
    rw [List.cons_append, measured]
    refine if_congr (Iff.rfl) ?_ rfl
    unfold skipLine
    rw [← List.cons_append, drop_line whole.1 (ends width)]
    have ended : ([] ++ tail width).dropWhile (· ≠ '\n') = tail width := drop_line (by simp) (ends width)
    rw [List.nil_append] at ended
    rw [ended]
  have more (width : Nat) : (lineStart (List.replicate (indent * width) ' ' ++ (c :: cs ++ tail width)) line
      (scaled width indents) read).rest ≠ [] := by simp [lineStart]
  by_cases blank : isBlankLine [c]
  · refine steady_of_lex (fun width _ => lex_step (more width) ?_) skipped
    rw [stepped, if_pos blank]
  · cases laid : (lineStart [] line indents read).layOut indent with
    | error e =>
      refine steady_fails e fun width wide => lex_fails (more width) ?_
      rw [stepped, if_neg blank, lay_out_scaled _ _ _ _ _ wide, laid]
      rfl
    | ok n =>
      refine steady_of_lex (fun width wide => same_step (more width) (by simp [resumed, inside]) ?_)
        (steady_line (lineStart [] n.line [] n.read) n.indents whole ends (after · n.indents))
      rw [stepped, if_neg blank, lay_out_scaled _ _ _ _ _ wide, laid]
      rfl

-- A line of its own.
def Tidy (l : Line) : Prop := Whole l.text.toList ∧ ∃ c ∈ l.text.toList.head?, c ≠ ' ' ∧ c ≠ '\t'

theorem lines_steady {lines : List Line} (tidy : ∀ l ∈ lines, Tidy l) :
    (∀ (l : Lexer) (indents : List Nat), Steady fun width => l.resumed (following width lines) (scaled width indents)) ∧
      ∀ (line : Nat) (indents : List Nat) (read : List Located),
        Steady fun width => lineStart (Code.render width lines).toList line (scaled width indents) read := by
  induction lines with
  | nil =>
    refine ⟨fun l indents => steady_ends (l.resumed [] []) indents rfl, fun line indents read => ?_⟩
    exact steady_ends (lineStart [] line [] read) indents rfl
  | cons first lines ih =>
    rw [List.forall_mem_cons] at tidy
    obtain ⟨whole, c, head, space, tab⟩ := tidy.1
    obtain ⟨cs, text⟩ : ∃ cs, first.text.toList = c :: cs := List.head?_eq_some_iff.mp head
    obtain ⟨afterLine, afterStart⟩ := ih tidy.2
    have chars (width : Nat) : (Code.render width (first :: lines)).toList =
        List.replicate (first.indent * width) ' ' ++ (c :: cs ++ following width lines) := by
      rw [render_chars, Line.render, String.toList_append, Text.spaces_chars, text, List.append_assoc]
    have starts (line : Nat) (indents : List Nat) (read : List Located) :
        Steady fun width => lineStart (Code.render width (first :: lines)).toList line (scaled width indents) read := by
      simp only [chars]
      refine start_steady line first.indent (text ▸ whole) space tab (following_ends · lines) ?_ afterLine
      cases lines with
      | nil => exact steady_ends (lineStart [] line [] read) indents rfl
      | cons next lines =>
        refine steady_of_lex (fun width _ => ?_) (afterStart (line + 1) indents read)
        rw [render_chars]
        rfl
    refine ⟨fun l indents => ?_, starts⟩
    have fed (width : Nat) := lex_line_end l (Code.render width (first :: lines)).toList (scaled width indents)
    by_cases outside : l.depth = 0
    · refine steady_of_lex (fun width _ => ?_) (starts (l.line + 1) indents l.endLine.read)
      have fed := fed width
      rw [if_pos outside, render_chars] at fed
      rw [render_chars]
      exact fed
    · refine steady_of_lex (fun width _ => ?_) (steady_line { l with line := l.line + 1 } indents whole
        (following_ends · lines) (afterLine · indents))
      have fed := fed width
      rw [if_neg outside, chars, lex_spaces, ← chars, render_chars] at fed
      rw [text]
      exact fed

end Lexer

end Flowstep.Script
