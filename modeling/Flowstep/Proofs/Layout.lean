import Flowstep.Proofs.Spelling

/-!
Lines of script text, indented by their level.
-/
namespace Flowstep.Script

def endsLine (c : Char) : Bool := c = '\n'

structure Row where
  text : String
  tokens : List Located
  begins : ∃ c cs, text.toList = c :: cs ∧ startsText c
  scans : Scans 0 endsLine text.toList tokens
  starts : ∃ t ts, tokens = t :: ts ∧ t.line = 0
  flat : ∀ t ∈ tokens, t.token.isNewline = false

def Row.height (r : Row) : Nat := r.text.toList.count '\n'

theorem row_of_gives {text : String} {tokens : List Token} (begins : ∃ c cs, text.toList = c :: cs ∧ startsText c)
    (gives : Gives 0 endsLine text.toList tokens) (filled : tokens ≠ []) :
    ∃ row : Row, row.text = text ∧ row.tokens.map (·.token) = tokens := by
  obtain ⟨ts, scans, rfl, flat, first⟩ := gives
  obtain ⟨t, ts, rfl⟩ := List.exists_cons_of_ne_nil (mt List.map_eq_nil_iff.mpr filled)
  exact ⟨⟨text, t :: ts, begins, scans, ⟨t, ts, rfl, first t rfl⟩, flat⟩, rfl, rfl⟩

def turn (level d line : Nat) : List Located :=
  if level < d then [⟨.indent, line⟩] else List.replicate (level - d) ⟨.dedent, line⟩

def laid (level line : Nat) : List (Nat × Row) → List Located
  | [] => turn level 0 (line - 1) ++ [⟨.eof, line - 1⟩]
  | (d, row) :: rest =>
    turn level d line ++ shift line row.tokens ++ ⟨.newline, line + row.height⟩ :: laid d (line + row.height + 1) rest

theorem laid_cons (level line d : Nat) (row : Row) (rest : List (Nat × Row)) :
    laid level line ((d, row) :: rest) = turn level d line ++ shift line row.tokens ++
      ⟨.newline, line + row.height⟩ :: laid d (line + row.height + 1) rest := rfl

def Climbs (level : Nat) : List (Nat × Row) → Prop
  | [] => True
  | (d, _) :: rest => d ≤ level + 1 ∧ Climbs d rest

def rowText (width : Nat) (r : Nat × Row) : String := Code.Line.render width ⟨r.1, r.2.text, none⟩

namespace Lexer

def stack (width : Nat) : Nat → List Nat
  | 0 => [0]
  | level + 1 => (level + 1) * width :: stack width level

theorem stack_head (width level : Nat) : (stack width level).head?.getD 0 = level * width := by
  cases level with
  | zero => simp [stack]
  | succ level => rfl

variable {width level d : Nat}

variable (row : Row) (line : Nat) (read : List Located)

theorem close_blocks_stack (wide : 1 ≤ width) (below : d ≤ level) : closeBlocks (d * width) line (stack width level) read =
      (stack width d, List.replicate (level - d) ⟨.dedent, line⟩ ++ read) := by
  induction level generalizing read with
  | zero =>
    obtain rfl : d = 0 := Nat.le_zero.mp below
    simp [stack, closeBlocks]
  | succ level ih =>
    rcases Nat.lt_or_eq_of_le below with less | rfl
    · have deeper : d * width < (level + 1) * width := Nat.mul_lt_mul_of_pos_right less wide
      rw [stack, closeBlocks, if_pos deeper, ih _ (Nat.le_of_lt_succ less), Nat.succ_sub (Nat.le_of_lt_succ less),
        List.replicate_succ']
      simp
    · rw [stack, closeBlocks, if_neg (Nat.lt_irrefl _), Nat.sub_self]
      rfl

theorem lay_out_stack {l : Lexer} (wide : 1 ≤ width) (open_ : l.indents = stack width level) (climbs : d ≤ level + 1) :
    l.layOut (d * width) = .ok { l with
      indents := stack width d
      read := turn level d l.line ++ l.read } := by
  unfold layOut indentWidth turn
  rw [open_, stack_head]
  by_cases deeper : level < d
  · obtain rfl : d = level + 1 := by omega
    rw [if_pos (Nat.mul_lt_mul_of_pos_right deeper wide), if_pos deeper]
    rfl
  · have below : d ≤ level := Nat.le_of_not_lt deeper
    rw [if_neg (Nat.not_lt.mpr (Nat.mul_le_mul_right width below)), if_neg deeper, close_blocks_stack l.line
      l.read wide below]
    dsimp only
    rw [if_pos (stack_head width d)]

theorem measure_spaces (before count : Nat) {c : Char} (cs : List Char) (space : c ≠ ' ') (tab : c ≠ '\t') :
    measure before (List.replicate count ' ' ++ c :: cs) = (before + count, c :: cs) := by
  induction count generalizing before with
  | zero =>
    rw [measure]
    · rfl
    · intro rest same
      exact space (List.cons.inj same).1
    · intro rest same
      exact tab (List.cons.inj same).1
  | succ count ih =>
    rw [List.replicate_succ, List.cons_append, measure, ih, Nat.add_assoc, Nat.add_comm 1]

def lineStart (rest : List Char) (line : Nat) (indents : List Nat) (read : List Located) : Lexer :=
  { rest, line, depth := 0, indents, read, atLineStart := true }

theorem line_start_step {c : Char} {cs : List Char} (wide : 1 ≤ width) (climbs : d ≤ level + 1) (starts : startsText c) :
    (lineStart (List.replicate (d * width) ' ' ++ c :: cs) line (stack width level) read).lex =
      (inside (c :: cs) line 0 (stack width d)
        (turn level d line ++ read)).lex := by
  simp only [startsText, List.mem_cons, decide_eq_true_eq, not_or] at starts
  obtain ⟨feed, space, tab, cr, hash, _⟩ := starts
  have measured := measure_spaces 0 (d * width) cs space tab
  rw [Nat.zero_add] at measured
  have statement : isBlankLine (c :: cs) = false := by simp [isBlankLine, feed, hash, cr]
  refine same_step (by simp [lineStart]) (by simp [inside]) ?_
  conv => lhs; unfold step
  dsimp only [lineStart]
  rw [measured]
  rw [statement, lay_out_stack wide rfl climbs]
  rfl

theorem lex_row (row : Row) (tail : List Char) (read : List Located) (wide : 1 ≤ width) (climbs : d ≤ level + 1)
    (meets : Meets endsLine tail) :
    (lineStart (List.replicate (d * width) ' ' ++ row.text.toList ++ tail) line (stack width level) read).lex =
      (inside tail (line + row.height) 0 (stack width d) ((shift line row.tokens).reverse ++
        (turn level d line ++ read))).lex := by
  obtain ⟨c, cs, text, starts⟩ := row.begins
  have scanned := row.scans tail line 0 (stack width d)
    (turn level d line ++ read) (Nat.le_refl 0) meets
  rw [List.append_assoc, text, List.cons_append, line_start_step line read wide climbs starts,
    ← List.cons_append, ← text, scanned]
  rfl

theorem lex_line_feed {line : Nat} {rest : List Char} {indents : List Nat} {t : Located} (flat : t.token.isNewline = false) :
    (inside ('\n' :: rest) line 0 indents (t :: read)).lex =
      (lineStart rest (line + 1) indents (⟨.newline, line⟩ :: t :: read)).lex := by
  refine lex_step (by simp [inside]) ?_
  unfold step
  simp [tokenStep, inside, lineStart, endLine, flat, push]

theorem row_read (before : List Located) :
    ∃ t read, (shift line row.tokens).reverse ++ before = t :: read ∧ t.token.isNewline = false := by
  obtain ⟨first, others, split, _⟩ := row.starts
  cases last : (shift line row.tokens).reverse with
  | nil =>
    rw [List.reverse_eq_nil_iff, split] at last
    cases last
  | cons t read =>
    refine ⟨t, read ++ before, rfl, ?_⟩
    have member : t ∈ shift line row.tokens := by
      rw [← List.mem_reverse, last]
      exact List.mem_cons_self
    obtain ⟨u, inside, rfl⟩ := List.mem_map.mp member
    exact row.flat u inside

theorem row_text_chars (width d : Nat) (row : Row) :
    (rowText width (d, row)).toList = List.replicate (d * width) ' ' ++ row.text.toList := by
  rw [rowText, Code.Line.render, String.toList_append, Text.spaces_chars]

theorem finish_row (width d line : Nat) {t : Located} (read : List Located) (wide : 1 ≤ width)
    (flat : t.token.isNewline = false) :
    (inside [] line 0 (stack width d) (t :: read)).finish =
      .ok ((t :: read).reverse ++ ⟨.newline, line⟩ :: laid d (line + 1) []) := by
  have closed := close_blocks_stack line (⟨.newline, line⟩ :: t :: read) wide (Nat.zero_le d)
  rw [Nat.zero_mul] at closed
  simp [finish, inside, endLine, flat, push, closed, laid, turn]

theorem turn_reverse (level d line : Nat) : (turn level d line).reverse = turn level d line := by
  unfold turn
  split
  · rfl
  · exact List.reverse_replicate

theorem lex_rows (width level line : Nat) {rows : List (Nat × Row)} (read : List Located) (wide : 1 ≤ width)
    (filled : rows ≠ []) (climbs : Climbs level rows) :
    (lineStart (Text.joinWith "\n" (rows.map (rowText width))).toList line (stack width level) read).lex >>= finish =
      .ok (read.reverse ++ laid level line rows) := by
  induction rows generalizing level line read with
  | nil => exact absurd rfl filled
  | cons r rows ih =>
    obtain ⟨d, row⟩ := r
    obtain ⟨climb, climbs⟩ := climbs
    obtain ⟨t, before, split, flat⟩ := row_read row line (turn level d line ++ read)
    have reversed : (t :: before).reverse = read.reverse ++ turn level d line ++ shift line row.tokens := by
      rw [← split]
      simp [turn_reverse]
    cases rows with
    | nil =>
      have first := lex_row line row [] read wide climb (by simp [Meets])
      rw [List.append_nil, ← row_text_chars, split] at first
      refine (congrArg (· >>= finish) (first.trans (lex_done rfl))).trans ?_
      refine (finish_row width d _ before wide flat).trans ?_
      rw [reversed, laid_cons level line d row]
      simp
    | cons next rows =>
      have first := lex_row line row
        ('\n' :: (Text.joinWith "\n" ((next :: rows).map (rowText width))).toList) read wide climb
        (by simp [Meets, endsLine])
      rw [split, lex_line_feed before flat, ← row_text_chars] at first
      have others := ih d (line + row.height + 1) (⟨.newline, line + row.height⟩ :: t :: before) (by simp) climbs
      rw [List.map_cons, List.map_cons, Text.join_with_cons, String.toList_append, String.toList_append,
        List.append_assoc]
      refine (congrArg (· >>= finish) first).trans (others.trans ?_)
      rw [List.reverse_cons, reversed, laid_cons level line d row]
      simp

end Lexer

inductive Node where
  | node (row : Row) (inner : List Node)

mutual

def Node.rows (level : Nat) : Node → List (Nat × Row)
  | .node row inner => (level, row) :: forestRows (level + 1) inner

def forestRows (level : Nat) : List Node → List (Nat × Row)
  | [] => []
  | node :: rest => node.rows level ++ forestRows level rest

end

mutual

def Node.height : Node → Nat
  | .node row inner => row.height + 1 + forestHeight inner

def forestHeight : List Node → Nat
  | [] => 0
  | node :: rest => node.height + forestHeight rest

end

mutual

-- The tokens of a tree that starts on a line; a block that is open at its end is closed on the line `close`.
def Node.tokens (line close : Nat) : Node → List Located
  | .node row inner =>
    shift line row.tokens ++ ⟨.newline, line + row.height⟩ ::
      (if inner.isEmpty then []
      else ⟨.indent, line + row.height + 1⟩ :: (forestTokens (line + row.height + 1) close inner ++ [⟨.dedent, close⟩]))

def forestTokens (line close : Nat) : List Node → List Located
  | [] => []
  | node :: rest =>
    node.tokens line (if rest.isEmpty then close else line + node.height) ++
      forestTokens (line + node.height) close rest

end

def Low (level : Nat) (rows : List (Nat × Row)) : Prop := ∀ r ∈ rows.head?, r.1 ≤ level

def closing (line : Nat) (rows : List (Nat × Row)) : Nat := if rows.isEmpty then line - 1 else line

theorem turn_same (level line : Nat) : turn level level line = [] := by simp [turn]

variable {level : Nat}

theorem turn_leaves {d : Nat} (line : Nat) (below : d ≤ level) :
    turn (level + 1) d line = ⟨.dedent, line⟩ :: turn level d line := by
  rw [turn, turn, if_neg (by omega), if_neg (by omega), Nat.succ_sub below, List.replicate_succ]

theorem laid_leaves {line : Nat} {rows : List (Nat × Row)} (low : Low level rows) :
    laid (level + 1) line rows = ⟨.dedent, closing line rows⟩ :: laid level line rows := by
  cases rows with
  | nil => rw [laid]; rfl
  | cons r rows =>
    obtain ⟨d, row⟩ := r
    rw [laid_cons, turn_leaves line (low (d, row) rfl)]
    rfl

theorem forest_rows_low (nodes : List Node) {after : List (Nat × Row)} (low : Low level after) :
    Low level (forestRows level nodes ++ after) := by
  cases nodes with
  | nil => simpa [forestRows] using low
  | cons node nodes =>
    cases node
    simp [Low, forestRows, Node.rows]

theorem closing_forest (level line : Nat) (nodes : List Node) (after : List (Nat × Row)) :
    closing line (forestRows level nodes ++ after) = if nodes.isEmpty then closing line after else line := by
  cases nodes with
  | nil => rfl
  | cons node nodes =>
    cases node
    rfl

theorem laid_enters (level line : Nat) {nodes : List Node} (after : List (Nat × Row)) (filled : nodes.isEmpty = false) :
    laid level line (forestRows (level + 1) nodes ++ after) =
      ⟨.indent, line⟩ :: laid (level + 1) line (forestRows (level + 1) nodes ++ after) := by
  cases nodes with
  | nil => cases filled
  | cons node nodes =>
    cases node
    simp [forestRows, Node.rows, laid_cons, turn]

mutual

theorem laid_node (level line : Nat) {after : List (Nat × Row)} (low : Low level after) : ∀ node : Node,
    laid level line (node.rows level ++ after) =
      node.tokens line (closing (line + node.height) after) ++ laid level (line + node.height) after
  | .node row inner => by
    have total : line + row.height + 1 + forestHeight inner = line + (Node.node row inner).height := by
      rw [Node.height]
      omega
    rw [Node.rows, List.cons_append, laid_cons, turn_same, Node.tokens]
    cases empty : inner.isEmpty with
    | true =>
      obtain rfl := List.isEmpty_iff.mp empty
      simp [forestRows, Node.height, forestHeight, Nat.add_assoc]
    | false =>
      rw [laid_enters level _ after empty,
        laid_forest (level + 1) _ after (fun r member => Nat.le_succ_of_le (low r member)) inner,
        laid_leaves low, total]
      simp

theorem laid_forest (level line : Nat) (after : List (Nat × Row)) (low : Low level after) : ∀ nodes : List Node,
    laid level line (forestRows level nodes ++ after) =
      forestTokens line (closing (line + forestHeight nodes) after) nodes ++ laid level (line + forestHeight nodes) after
  | [] => by simp [forestRows, forestTokens, forestHeight]
  | node :: rest => by
    have total : line + node.height + forestHeight rest = line + forestHeight (node :: rest) := by
      rw [forestHeight, Nat.add_assoc]
    rw [forestRows, List.append_assoc, laid_node level line (forest_rows_low rest low) node,
      laid_forest level _ after low rest, closing_forest, forestTokens, total]
    cases empty : rest.isEmpty with
    | true =>
      obtain rfl := List.isEmpty_iff.mp empty
      simp [forestHeight]
    | false => simp

end

theorem climbs_from {low high : Nat} {rows : List (Nat × Row)} (higher : low ≤ high) (climbs : Climbs low rows) :
    Climbs high rows := by
  cases rows with
  | nil => trivial
  | cons r rows => exact ⟨Nat.le_trans climbs.1 (Nat.succ_le_succ higher), climbs.2⟩

mutual

theorem climbs_node {level from_ : Nat} {after : List (Nat × Row)} (first : level ≤ from_ + 1)
    (climbs : Climbs level after) : ∀ node : Node, Climbs from_ (node.rows level ++ after)
  | .node _ inner => ⟨first, climbs_forest (level + 1) level after (Nat.le_refl _)
      (climbs_from (Nat.le_succ _) climbs) climbs inner⟩

theorem climbs_forest (level from_ : Nat) (after : List (Nat × Row)) (first : level ≤ from_ + 1)
    (climbs : Climbs level after) (direct : Climbs from_ after) :
    ∀ nodes : List Node, Climbs from_ (forestRows level nodes ++ after)
  | [] => direct
  | node :: rest => by
    rw [forestRows, List.append_assoc]
    exact climbs_node first (climbs_forest level level after (Nat.le_succ _) climbs climbs rest) node

end

def Forms (level : Nat) (nodes : List Node) (lines : List Code.Line) : Prop :=
  lines.map (fun l => (l.indent, l.text)) = (forestRows level nodes).map fun r => (r.1, r.2.text)

theorem forest_rows_present {level : Nat} {nodes : List Node} (filled : nodes ≠ []) : forestRows level nodes ≠ [] := by
  cases nodes with
  | nil => exact absurd rfl filled
  | cons node nodes =>
    cases node
    simp [forestRows, Node.rows]

theorem tokenize_forest {width : Nat} {nodes : List Node} {lines : List Code.Line} (wide : 1 ≤ width)
    (filled : nodes ≠ []) (forms : Forms 0 nodes lines) :
    tokenize (Code.render width lines) =
      .ok (forestTokens 1 (forestHeight nodes) nodes ++ [⟨.eof, forestHeight nodes⟩]) := by
  have rendered := congrArg (List.map fun p : Nat × String => Code.Line.render width ⟨p.1, p.2, none⟩) forms
  rw [List.map_map, List.map_map] at rendered
  have climbs := climbs_forest 0 0 [] (Nat.zero_le _) trivial trivial nodes
  have laidOut := laid_forest 0 1 [] (by simp [Low]) nodes
  rw [List.append_nil] at climbs laidOut
  have lexed := Lexer.lex_rows width 0 1 [] wide (forest_rows_present filled) climbs
  rw [List.reverse_nil, List.nil_append] at lexed
  have text : Code.render width lines = Text.joinWith "\n" ((forestRows 0 nodes).map (rowText width)) :=
    congrArg (Text.joinWith "\n") rendered
  rw [text]
  refine (lexed.trans (congrArg _ laidOut)).trans ?_
  simp [closing, laid, turn]

end Flowstep.Script
