import Flowstep.Proofs.Lexing
import Mathlib.Algebra.Ring.Int.Defs

/-!
The layout of the tokens of a script.
-/
namespace Flowstep.Script

namespace Token

def blocks : Token → Int
  | .indent => 1
  | .dedent => -1
  | _ => 0

def brackets : Token → Int
  | .op symbol => if isOpening symbol then 1 else if isClosing symbol then -1 else 0
  | _ => 0

def isLayout : Token → Bool
  | .newline | .indent | .dedent => true
  | _ => false

def isEof : Token → Bool
  | .eof => true
  | _ => false

end Token

def blockLevel (ts : List Located) : Int := (ts.map (·.token.blocks)).sum

def bracketLevel (ts : List Located) : Int := (ts.map (·.token.brackets)).sum

-- A token may follow the tokens before it.
structure Follows (before : List Located) (t : Located) : Prop where
  lines : ∀ u ∈ before, u.line ≤ t.line
  layout : t.token.isLayout → bracketLevel before = 0
  blocks : 0 ≤ blockLevel before + t.token.blocks

-- The latest token comes first.
def WellNested : List Located → Prop
  | [] => True
  | t :: before => Follows before t ∧ WellNested before

def Rising (indents : List Nat) : Prop := indents.Pairwise (· > ·) ∧ indents.getLast? = some 0

variable {indents : List Nat} {before back : List Located} {t : Located}

theorem rising_pos (rising : Rising indents) : 0 < indents.length := by
  cases indents with
  | nil => cases rising.2
  | cons w ws => exact Nat.succ_pos _

theorem rising_cons {width : Nat} (rising : Rising indents) (deeper : indents.head?.getD 0 < width) :
    Rising (width :: indents) := by
  cases indents with
  | nil => cases rising.2
  | cons w ws =>
    refine ⟨List.pairwise_cons.mpr ⟨List.forall_mem_cons.mpr ⟨deeper, fun v member => ?_⟩, rising.1⟩, ?_⟩
    · exact Nat.lt_trans ((List.pairwise_cons.mp rising.1).1 v member) deeper
    · rw [List.getLast?_cons_cons, rising.2]

theorem rising_tail {w width : Nat} (rising : Rising (w :: indents)) (less : width < w) : Rising indents := by
  refine ⟨(List.pairwise_cons.mp rising.1).2, ?_⟩
  cases indents with
  | nil =>
    have zero : w = 0 := by simpa using rising.2
    omega
  | cons v vs => simpa using rising.2

theorem nested_follows (nested : WellNested (back ++ t :: before)) : Follows before t := by
  induction back with
  | nil => exact nested.1
  | cons u back ih => exact ih nested.2

theorem levels_reverse (ts : List Located) :
    blockLevel ts.reverse = blockLevel ts ∧ bracketLevel ts.reverse = bracketLevel ts := by
  rw [blockLevel, bracketLevel, List.map_reverse, List.map_reverse, List.sum_reverse, List.sum_reverse]
  exact ⟨rfl, rfl⟩

theorem follows_reverse (follows : Follows before.reverse t) : Follows before t := by
  obtain ⟨lines, layout, blocks⟩ := follows
  rw [(levels_reverse before).2] at layout
  rw [(levels_reverse before).1] at blocks
  exact ⟨fun u member => lines u (List.mem_reverse.mpr member), layout, blocks⟩

theorem quoted_body_line {quote : Char} {start line last : Nat} {read cs text rest : List Char}
    (done : quotedBody quote start read line cs = .ok (text, rest, last)) : line ≤ last := by
  fun_induction quotedBody quote start read line cs with
  | case1 | case2 | case13 => cases done
  | case12 =>
    cases done
    exact Nat.le_refl _
  | case10 _ _ _ ih => exact Nat.le_of_succ_le (ih done)
  | _ => rename_i ih; exact ih done

theorem number_token_inline {line : Nat} {cs rest : List Char} {token : Token}
    (done : numberToken line cs = .ok (token, rest)) :
    token.isLayout = false ∧ token.brackets = 0 ∧ token.blocks = 0 ∧ token.isEof = false := by
  unfold numberToken at done
  dsimp only at done
  split at done
  · split at done
    · cases done
      exact ⟨rfl, rfl, rfl, rfl⟩
    · cases done
  · split at done
    · cases done
      exact ⟨rfl, rfl, rfl, rfl⟩
    · cases done

-- What is read up to a line with so many open brackets and these open blocks.
structure Sound (line depth : Nat) (indents : List Nat) (read : List Located) : Prop where
  nested : WellNested read
  brackets : bracketLevel read = depth
  blocks : blockLevel read + 1 = indents.length
  lines : ∀ u ∈ read, u.line ≤ line
  going : ∀ u ∈ read, u.token.isEof = false
  rising : Rising indents

section

variable {line last depth level : Nat} {others : List Nat} {read : List Located} {token : Token}
  (sound : Sound line depth indents read)
include sound

theorem sound_later (later : line ≤ last) : Sound last depth indents read :=
  { sound with lines := fun u member => Nat.le_trans (sound.lines u member) later }

theorem sound_token (flat : token.isLayout → depth = 0) (brackets : (depth : Int) + token.brackets = level)
    (blocks : (indents.length : Int) + token.blocks = others.length) (going : token.isEof = false) (rising : Rising others) :
    Sound line level others (⟨token, line⟩ :: read) where
  nested := by
    refine ⟨⟨sound.lines, fun layout => ?_, ?_⟩, sound.nested⟩
    · rw [sound.brackets, flat layout]
      rfl
    · have known := sound.blocks
      have filled := rising_pos rising
      dsimp only
      omega
  brackets := by
    rw [← brackets, ← sound.brackets]
    exact Int.add_comm _ _
  blocks := by
    rw [← blocks, ← sound.blocks]
    simp only [blockLevel, List.map_cons, List.sum_cons]
    omega
  lines := List.forall_mem_cons.mpr ⟨Nat.le_refl _, sound.lines⟩
  going := List.forall_mem_cons.mpr ⟨going, sound.going⟩
  rising := rising

-- A token that stands inside of a line and is no bracket.
theorem sound_inline (flat : token.isLayout = false) (brackets : token.brackets = 0) (blocks : token.blocks = 0)
    (going : token.isEof = false) : Sound line depth indents (⟨token, line⟩ :: read) :=
  sound_token sound (by simp [flat]) (by simp [brackets]) (by simp [blocks]) going sound.rising

theorem sound_closed (width : Nat) (outside : depth = 0) :
    Sound line depth (Lexer.closeBlocks width line indents read).1 (Lexer.closeBlocks width line indents read).2 := by
  induction indents generalizing read with
  | nil => exact sound
  | cons w ws ih =>
    rw [Lexer.closeBlocks]
    split
    · rename_i less
      refine ih (sound_token sound (fun _ => outside) (Int.add_zero _) ?_ rfl (rising_tail sound.rising less))
      rw [List.length_cons, Token.blocks]
      omega
    · exact sound

end

namespace Lexer

def Nested (l : Lexer) : Prop := Sound l.line l.depth l.indents l.read

variable {l next : Lexer}

theorem nested_end_line (nested : l.Nested) (outside : l.depth = 0) : l.endLine.Nested := by
  unfold endLine
  split
  · exact nested
  · split
    · exact nested
    · exact sound_token nested (fun _ => outside) (Int.add_zero _) (Int.add_zero _) rfl nested.rising

theorem nested_operator {c : Char} (nested : l.Nested) (done : l.operatorStep c = .ok next) : next.Nested := by
  unfold operatorStep at done
  split at done
  · cases done
  · rename_i op _
    split at done
    · rename_i opening
      cases done
      exact sound_token nested nofun (by rw [Token.brackets, if_pos opening]; rfl) (Int.add_zero _) rfl nested.rising
    · rename_i other
      split at done
      · rename_i closing
        split at done
        · cases done
        · cases done
          refine sound_token nested nofun ?_ (Int.add_zero _) rfl nested.rising
          simp only [Token.brackets, other, closing]
          change (l.depth : Int) + -1 = ((l.depth - 1 : Nat) : Int)
          omega
      · rename_i plain
        cases done
        exact sound_inline nested rfl (by simp [Token.brackets, other, plain]) rfl rfl

theorem nested_token (nested : l.Nested) (done : l.tokenStep = .ok next) : next.Nested := by
  unfold tokenStep at done
  split at done
  · cases done
    exact nested
  · rename_i rest _
    cases done
    split
    · rename_i outside
      exact sound_later (nested_end_line nested outside) (Nat.le_succ _)
    · exact sound_later nested (Nat.le_succ _)
  · cases done
    exact sound_later nested (Nat.le_succ _)
  · split at done
    · cases done
      exact nested
    · split at done
      · cases done
        exact nested
      · split at done
        · obtain ⟨⟨text, after, last⟩, body, done⟩ := bind_ok done
          cases done
          exact sound_inline (sound_later nested (quoted_body_line body)) rfl rfl rfl rfl
        · split at done
          · obtain ⟨⟨token, after⟩, number, done⟩ := bind_ok done
            cases done
            obtain ⟨flat, brackets, blocks, going⟩ := number_token_inline number
            exact sound_inline nested flat brackets blocks going
          · split at done
            · cases done
              exact sound_inline nested rfl rfl rfl rfl
            · exact nested_operator nested done

theorem nested_layout {width : Nat} (nested : l.Nested) (outside : l.depth = 0) (done : l.layOut width = .ok next) :
    next.Nested := by
  unfold layOut at done
  split at done
  · rename_i deeper
    cases done
    exact sound_token nested (fun _ => outside) (Int.add_zero _) rfl rfl (rising_cons nested.rising deeper)
  · dsimp only at done
    split at done
    · cases done
      exact sound_closed nested width outside
    · cases done

theorem nested_step (nested : l.Nested) (done : l.step = .ok next) : next.Nested := by
  unfold step at done
  split at done
  · rename_i start
    have outside : l.depth = 0 := by
      rw [Bool.and_eq_true, decide_eq_true_eq] at start
      exact start.2
    dsimp only at done
    split at done
    · cases done
      unfold skipLine
      split
      · exact nested
      · exact sound_later nested (Nat.le_succ _)
    · obtain ⟨laid, layout, done⟩ := bind_ok done
      have opened := nested_layout (l := { l with rest := (measure 0 l.rest).2 }) nested outside layout
      exact nested_token (l := { laid with atLineStart := false }) opened done
  · exact nested_token nested done

theorem nested_run {fuel : Nat} (nested : l.Nested) (done : l.run fuel = .ok next) : next.Nested := by
  induction fuel generalizing l with
  | zero =>
    cases done
    exact nested
  | succ fuel ih =>
    rw [run] at done
    split at done
    · cases done
      exact nested
    · obtain ⟨middle, stepped, done⟩ := bind_ok done
      exact ih (nested_step nested stepped) done

theorem close_blocks_read (line : Nat) {indents : List Nat} (rising : Rising indents) (read : List Located) :
    (closeBlocks 0 line indents read).1 = [0] ∧
      ∃ count, (closeBlocks 0 line indents read).2 = List.replicate count ⟨.dedent, line⟩ ++ read := by
  induction indents generalizing read with
  | nil => cases rising.2
  | cons w ws ih =>
    rw [closeBlocks]
    split
    · rename_i less
      obtain ⟨outermost, count, closed⟩ := ih (rising_tail rising less) (⟨.dedent, line⟩ :: read)
      refine ⟨outermost, count + 1, ?_⟩
      rw [closed, List.replicate_succ', List.append_assoc]
      rfl
    · rename_i zero
      obtain rfl : w = 0 := by omega
      cases ws with
      | nil => exact ⟨rfl, 0, rfl⟩
      | cons v vs => exact absurd ((List.pairwise_cons.mp rising.1).1 v List.mem_cons_self) (Nat.not_lt_zero v)

theorem end_line_depth (l : Lexer) : l.endLine.depth = l.depth := by
  unfold endLine
  split
  · rfl
  · split <;> rfl

theorem end_line_ends (l : Lexer) : l.endLine.read = [] ∨ ∃ t read, l.endLine.read = t :: read ∧ t.token.isNewline := by
  unfold endLine
  split
  · rename_i empty
    exact .inl empty
  · rename_i t read filled
    split
    · rename_i newline
      exact .inr ⟨t, read, filled, newline⟩
    · exact .inr ⟨_, _, rfl, rfl⟩

theorem nested_start (text : String) : (ofText text).Nested :=
  ⟨trivial, rfl, rfl, by simp [ofText], by simp [ofText], by simp [ofText, Rising]⟩

end Lexer

theorem layout_is_well_nested {text : String} {tokens : List Located} (done : tokenize text = .ok tokens) :
    (∀ front t back, tokens = front ++ t :: back → Follows front t) ∧ blockLevel tokens = 0 ∧ bracketLevel tokens = 0 ∧
    (∃ body count last, tokens = body ++ List.replicate count ⟨.dedent, last⟩ ++ [⟨.eof, last⟩] ∧
      (body = [] ∨ ∃ front t, body = front ++ [t] ∧ t.token.isNewline) ∧ ∀ t ∈ body, t.token.isEof = false) ∧
    ∀ fuel l, (Lexer.ofText text).run fuel = .ok l → Rising l.indents := by
  obtain ⟨l, ran, done⟩ := bind_ok done
  have nested := Lexer.nested_run (Lexer.nested_start text) ran
  unfold Lexer.finish at done
  split at done
  · cases done
  have outside : l.depth = 0 := by omega
  have ended := Lexer.nested_end_line nested outside
  have closed := sound_closed ended 0 (l.end_line_depth.trans outside)
  obtain ⟨outermost, count, split⟩ := Lexer.close_blocks_read l.endLine.line ended.rising l.endLine.read
  have levels : blockLevel _ + 1 = _ ∧ bracketLevel _ = _ := ⟨closed.blocks, closed.brackets⟩
  rw [outermost, l.end_line_depth, outside] at levels
  generalize shut : (Lexer.closeBlocks 0 l.endLine.line l.endLine.indents l.endLine.read).2 = read at closed levels split
  dsimp only at done
  rw [shut] at done
  cases done
  have whole : WellNested (⟨.eof, l.endLine.line⟩ :: read) :=
    ⟨⟨closed.lines, nofun, by have known := levels.1; dsimp only [Token.blocks, List.length_singleton] at known ⊢; omega⟩, closed.nested⟩
  refine ⟨fun front t back same => ?_, ?_, ?_, ⟨l.endLine.read.reverse, count, l.endLine.line, ?_, ?_, ?_⟩, ?_⟩
  · have turned := congrArg List.reverse same
    rw [List.reverse_reverse, List.reverse_append, List.reverse_cons, List.append_assoc] at turned
    rw [turned] at whole
    exact follows_reverse (nested_follows whole)
  · rw [(levels_reverse _).1]
    have known := levels.1
    simp only [blockLevel, List.map_cons, List.sum_cons, Token.blocks, List.length_singleton] at known ⊢
    omega
  · rw [(levels_reverse _).2]
    simpa [bracketLevel, Token.brackets] using levels.2
  · rw [List.reverse_cons, split, List.reverse_append, List.reverse_replicate]
  · rcases l.end_line_ends with empty | ⟨t, before, filled, newline⟩
    · exact .inl (by rw [empty]; rfl)
    · exact .inr ⟨before.reverse, t, by rw [filled, List.reverse_cons], newline⟩
  · exact fun t member => ended.going t (List.mem_reverse.mp member)
  · exact fun fuel next reached => (Lexer.nested_run (Lexer.nested_start text) reached).rising

theorem block_with_brackets_nested : ∃ tokens, tokenize "if a:\n\tb(\n1) # c\n\\\n" = .ok tokens ∧ blockLevel tokens = 0 ∧
    tokens.length = 13 := by
  obtain ⟨tokens, done, length⟩ : ∃ tokens, tokenize "if a:\n\tb(\n1) # c\n\\\n" = .ok tokens ∧ tokens.length = 13 := ⟨_, rfl, rfl⟩
  exact ⟨tokens, done, (layout_is_well_nested done).2.1, length⟩

end Flowstep.Script
