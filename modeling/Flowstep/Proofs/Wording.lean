import Flowstep.Proofs.Blocks

/-!
Lines of code that are read as statements.
-/
namespace Flowstep.Script

open Code (Line)
open Script.Parser (Reads Opens Phrase Tells Arms Handles Finishes Heading Sentence targetExpr separated
  startsExpression startsSimple startsStatement clauseWords compoundWords)

def Begins (text : String) : Prop := ∃ c cs, text.toList = c :: cs ∧ startsText c

theorem begins_append (front back : String) (begins : Begins front) : Begins (front ++ back) := by
  obtain ⟨c, cs, split, starts⟩ := begins
  exact ⟨c, cs ++ back.toList, by rw [String.toList_append, split]; rfl, starts⟩

-- The text on a line is followed by the line `next`: line feeds inside the text count.
def Ends (line : Nat) (text : String) (next : Nat) : Prop := line + text.toList.count '\n' + 1 = next

theorem ends_plain (line : Nat) (text : String) (plain : Text.Plain text) : Ends line text (line + 1) := by
  rw [Ends, List.count_eq_zero.mpr plain]

variable {level : Nat}

theorem forms_append {front back : List Node} {first second : List Line} (forms : Forms level front first)
    (others : Forms level back second) : Forms level (front ++ back) (first ++ second) := by
  unfold Forms at *
  rw [List.map_append, forms, others, forest_rows_append, List.map_append]

theorem forms_node {level : Nat} (row : Row) {inner : List Node} (origin : Option Nat) {lines : List Line}
    (forms : Forms (level + 1) inner lines) : Forms level [.node row inner] (⟨level, row.text, origin⟩ :: lines) := by
  unfold Forms at *
  rw [List.map_cons, forms, forestRows, forestRows, Node.rows, List.append_nil, List.map_cons]

-- The lines are read as the statements, of which the first is on the given line and the last ends before `next`.
def Written (level : Nat) (lines : List Line) (line next : Nat) (stmts : List Stmt) : Prop :=
  ∃ nodes, Forms level nodes lines ∧ Tells nodes line stmts ∧ line + forestHeight nodes = next

theorem written_nil (level line : Nat) : Written level [] line line [] := ⟨[], rfl, .nil line, rfl⟩

theorem written_append (level line middle next : Nat) (front back : List Line) (first second : List Stmt)
    (written : Written level front line middle first) (others : Written level back middle next second) :
    Written level (front ++ back) line next (first ++ second) := by
  obtain ⟨nodes, forms, tells, rfl⟩ := written
  obtain ⟨more, formsMore, tellsMore, rfl⟩ := others
  exact ⟨nodes ++ more, forms_append forms formsMore,
    Parser.tells_append tells tellsMore, by rw [forest_height_append, Nat.add_assoc]⟩

theorem line_ends_token (c : Char) (ends : endsLine c) : endsToken c := by
  simp only [endsLine, decide_eq_true_eq] at ends
  subst ends
  decide

variable {line next : Nat} {text : String} {tokens : List Token}

theorem written_sentence (level : Nat) (origin : Option Nat) {kind : StmtKind}
    (ends : Ends line text next) (begins : Begins text) (gives : Gives 0 endsToken text.toList tokens)
    (opens : Opens tokens startsSimple) (sentence : Sentence tokens kind) :
    Written level [⟨level, text, origin⟩] line next [⟨line, kind⟩] := by
  obtain ⟨row, rfl, same⟩ := row_of_gives begins (gives_weaken gives line_ends_token)
    (Parser.opens_ne_nil opens)
  exact ⟨[.node row []], forms_node row origin rfl,
    Parser.tells_sentence line same opens sentence, ends⟩

theorem written_word (level line : Nat) (word : String) (origin : Option Nat) (kind : StmtKind)
    (known : (word, kind) ∈ Parser.wordStatements) :
    Written level [⟨level, word, origin⟩] line (line + 1) [⟨line, kind⟩] := by
  have facts : IsWord word.toList ∧ word ∉ clauseWords ∧ word ∉ compoundWords ∧ Text.Plain word := by
    have sentence := known
    unfold Parser.wordStatements at sentence
    simp only [List.mem_cons, List.not_mem_nil, or_false] at sentence
    rcases sentence with ⟨rfl, _⟩ | ⟨rfl, _⟩ | ⟨rfl, _⟩ | ⟨rfl, _⟩ | ⟨rfl, _⟩ <;>
      exact ⟨⟨_, _, rfl, by decide⟩, by decide⟩
  obtain ⟨isWord, clause, compound, plain⟩ := facts
  have gives := gives_weaken (gives_word word.toList isWord) ends_token_name
  rw [String.ofList_toList] at gives
  obtain ⟨c, cs, split, starts, _⟩ := isWord
  refine written_sentence level origin (ends_plain line word plain) ⟨c, cs, split, start_text starts⟩
    gives ⟨.name word, [], rfl, clause, ?_⟩ (Parser.sentence_word known)
  rintro other listed same
  exact compound (Token.name.inj same ▸ listed)

theorem expression_starts_simple {t : Token} (starts : startsExpression t) : startsSimple t := by
  refine ⟨?_, ?_⟩
  · cases t with
    | name word =>
      intro listed
      have reserved : ∀ w ∈ clauseWords, isReserved w ∧ w ≠ "not" := by decide
      exact Parser.starts_word starts (reserved word listed) rfl
    | _ => trivial
  · intro word listed
    have reserved : ∀ w ∈ compoundWords, isReserved w ∧ w ≠ "not" := by decide
    exact Parser.starts_word starts (reserved word listed)

theorem opens_simple (opens : Opens tokens startsExpression) : Opens tokens startsSimple := by
  obtain ⟨t, rest, split, starts⟩ := opens
  exact ⟨t, rest, split, expression_starts_simple starts⟩

theorem spells_begins {floor level : Nat} {text : String} {e : Expr} (spells : Spells floor level text e) : Begins text := by
  obtain ⟨c, cs, _, split, begins, _⟩ := spells
  exact ⟨c, cs, split, begins⟩

theorem written_expr {line next : Nat} (level : Nat) {text : String} (origin : Option Nat) {e : Expr} (ends : Ends line text next)
    (spells : Spells 0 0 text e) :
    Written level [⟨level, text, origin⟩] line next [⟨line, .expr e⟩] := by
  obtain ⟨_, tokens, gives, phrase, _⟩ := spells_positional spells (by decide)
  exact written_sentence level origin ends (spells_begins spells) gives (opens_simple phrase.2)
    (Parser.sentence_expr phrase)

def Binds (text : String) (target : Target) : Prop := Spells 0 7 text (targetExpr target)

variable {first : String × Target} {others : List (String × Target)}

theorem gives_targets (each : ∀ p ∈ first :: others, Binds p.1 p.2) :
    ∃ (head : List Token × Target) (tail : List (List Token × Target)),
      (head :: tail).map Prod.snd = (first :: others).map Prod.snd ∧
      (∀ b ∈ head :: tail, Reads 7 b.1 (targetExpr b.2) ∧ Reads 0 b.1 (targetExpr b.2) ∧ Opens b.1 startsExpression) ∧
      Gives 0 endsToken (Text.joinWith ", " ((first :: others).map Prod.fst)).toList
        (separated ((head :: tail).map Prod.fst)) := by
  have known (p : String × Target) (member : p ∈ first :: others) : ∃ tokens, p.1.toList ≠ [] ∧ tokens ≠ [] ∧
      Gives 0 endsToken p.1.toList tokens ∧ Reads 7 tokens (targetExpr p.2) ∧ Reads 0 tokens (targetExpr p.2) ∧
        Opens tokens startsExpression := by
    obtain ⟨c, cs, tokens, split, _, gives, grows, opens, _⟩ := each p member
    have reads := Parser.extends_reads (Parser.extends_below (by decide) (Nat.zero_le 7) opens grows)
    obtain ⟨t, rest, headed, starts, _⟩ := opens
    rw [split]
    exact ⟨tokens, by simp, by simp [headed], gives_plain gives, Parser.extends_reads grows, reads, t, rest, headed, starts⟩
  choose! tokens present filled gives all using known
  have joined := gives_joined comma_gap (first :: others) Prod.fst tokens fun p member =>
    ⟨present p member, filled p member, gives p member⟩
  exact ⟨(tokens first, first.2), others.map fun p => (tokens p, p.2), by simp, List.forall_mem_cons.mpr
    ⟨all first List.mem_cons_self, List.forall_mem_map.mpr fun p member => all p (List.mem_cons_of_mem _ member)⟩,
    by simpa [separated, Function.comp_def] using joined⟩

theorem joined_filled (sep : String) {first : String} (others : List String) (begins : Begins first) :
    Begins (Text.joinWith sep (first :: others)) := by
  obtain ⟨c, cs, split, starts⟩ := begins
  obtain ⟨more, whole⟩ := joined_begins sep others split
  exact ⟨c, more, whole, starts⟩

theorem written_assign (level line next : Nat) (first : String × Target) (others : List (String × Target))
    (code : String) (origin : Option Nat) (e : Expr)
    (ends : Ends line (Text.joinWith ", " ((first :: others).map Prod.fst) ++ " = " ++ code) next)
    (each : ∀ p ∈ first :: others, Binds p.1 p.2) (denotes : Denotes 0 code e) :
    Written level [⟨level, Text.joinWith ", " ((first :: others).map Prod.fst) ++ " = " ++ code, origin⟩] line next
      [⟨line, .assign ((first :: others).map Prod.snd) e⟩] := by
  obtain ⟨head, tail, values, all, left⟩ := gives_targets each
  obtain ⟨c, cs, tokens, split, _, right, reads⟩ := denotes
  have opens := (all head List.mem_cons_self).2.2
  have equals := gives_append (gives_symbol '=' (by decide)) (by simp) (gives_blank_before right) (by decide)
  have whole := gives_append left (Parser.opens_ne_nil (Parser.separated_opens (tail.map Prod.fst) opens))
    (gives_blank_before equals) (by decide)
  have begins := joined_filled ", " (others.map Prod.fst) (spells_begins (each first List.mem_cons_self))
  have chars : (Text.joinWith ", " ((first :: others).map Prod.fst) ++ " = " ++ code).toList =
      (Text.joinWith ", " ((first :: others).map Prod.fst)).toList ++ ' ' :: '=' :: ' ' :: c :: cs := by
    rw [String.toList_append, String.toList_append, List.append_assoc, split]
    rfl
  have sentence := Parser.sentence_assign
    ⟨(all head List.mem_cons_self).2.1, opens⟩
    (fun p member => (all p (List.mem_cons_of_mem _ member)).2) reads
  rw [values] at sentence
  refine written_sentence level origin ends (begins_append _ _ (begins_append _ _ begins))
    (chars ▸ whole) ?_ sentence
  obtain ⟨t, rest, headed, starts⟩ := opens_simple (Parser.separated_opens (tail.map Prod.fst) opens)
  exact ⟨t, _, by rw [List.map_cons, headed]; rfl, starts⟩

theorem written_assign_one (level line next : Nat) (text : String) (target : Target) (code : String)
    (origin : Option Nat) (e : Expr) (ends : Ends line (text ++ " = " ++ code) next) (binds : Binds text target)
    (denotes : Denotes 0 code e) :
    Written level [⟨level, text ++ " = " ++ code, origin⟩] line next [⟨line, .assign [target] e⟩] :=
  written_assign level line next (text, target) [] code origin e ends (by simpa using binds) denotes

theorem word_begins {word : String} (isWord : IsWord word.toList) : Begins word := by
  obtain ⟨c, cs, split, starts, _⟩ := isWord
  exact ⟨c, cs, split, start_text starts⟩

variable (name word : String) (origin : Option Nat)

theorem binds_name (valid : isIdentifier name) : Binds name (.name name) := spells_word name valid

variable {code : String} {e : Expr}

theorem written_decrement (level : Nat) {name : String} (origin : Option Nat)
    (ends : Ends line (name ++ " -= " ++ code) next) (valid : isIdentifier name) (denotes : Denotes 0 code e) :
    Written level [⟨level, name ++ " -= " ++ code, origin⟩] line next [⟨line, .augAssign (.name name) .sub e⟩] := by
  obtain ⟨word, free, variable_⟩ := identifier_word valid
  obtain ⟨c, cs, tokens, split, _, gives, reads⟩ := denotes
  have minus := gives_append (gives_single (scans_double "-=" (by decide)) rfl) (by simp) (gives_blank_before gives) rfl
  have whole := gives_append (gives_word name.toList word) (by simp) (gives_blank_before minus) (by decide)
  rw [String.ofList_toList] at whole
  refine written_sentence level origin ends
    (begins_append _ _ (begins_append _ _ (word_begins word))) ?_ (opens_simple ⟨.name name, _, rfl, .inl free⟩)
    (Parser.sentence_decrement free variable_ reads)
  rw [String.toList_append, String.toList_append, List.append_assoc, split]
  exact whole

theorem header_row (code : String) (tokens : List Token) (isWord : IsWord word.toList)
    (gives : Gives 0 endsToken code.toList tokens) (present : code.toList ≠ []) (filled : tokens ≠ []) :
    ∃ row : Row, row.text = word ++ " " ++ code ++ ":" ∧ Heading row word tokens := by
  obtain ⟨c, cs, split⟩ := List.exists_cons_of_ne_nil present
  have back := gives_append gives filled gives_colon (by decide)
  rw [split] at back
  have whole := gives_append (gives_word word.toList isWord) (by simp) (gives_blank_before back) (by decide)
  rw [String.ofList_toList] at whole
  refine row_of_gives (begins_append _ _ (begins_append _ _ (begins_append _ _ (word_begins isWord)))) ?_
    (by simp)
  have chars : (word ++ " " ++ code ++ ":").toList = word.toList ++ ' ' :: c :: (cs ++ [':']) := by
    simp [split]
  rw [chars]
  exact gives_weaken whole fun _ _ => rfl

theorem bare_row (isWord : IsWord word.toList) : ∃ row : Row, row.text = word ++ ":" ∧ Heading row word [] := by
  have whole := gives_append (gives_word word.toList isWord) (by simp) gives_colon (by decide)
  rw [String.ofList_toList] at whole
  refine row_of_gives (begins_append _ _ (word_begins isWord)) ?_ (by simp)
  rw [String.toList_append]
  exact gives_weaken whole fun _ _ => rfl

theorem test_row (isWord : IsWord word.toList) (spells : Spells 0 0 code e) :
    ∃ (row : Row) (tokens : List Token), row.text = word ++ " " ++ code ++ ":" ∧ Heading row word tokens ∧
      Reads 0 tokens e := by
  obtain ⟨present, tokens, gives, phrase, _⟩ := spells_positional spells (by decide)
  obtain ⟨row, text, heading⟩ := header_row word code tokens isWord gives present (Parser.opens_ne_nil phrase.2)
  exact ⟨row, tokens, text, heading, phrase.1⟩

variable {nodes : List Node} {lines : List Line}

theorem forms_filled (forms : Forms level nodes lines) (filled : lines ≠ []) : nodes ≠ [] := by
  rintro rfl
  exact filled (List.map_eq_nil_iff.mp forms)

variable {inside : Nat} {body : List Line} {stmts : List Stmt}

theorem suite_under {row : Row} (same : row.text = text) (ends : Ends line text inside)
    (filled : body ≠ []) (written : Written (level + 1) body inside next stmts) :
    ∃ inner, Forms level [.node row inner] (⟨level, text, origin⟩ :: body) ∧ inner ≠ [] ∧
      Tells inner (line + row.height + 1) stmts ∧ line + (Node.node row inner).height = next := by
  subst same
  obtain ⟨inner, forms, tells, rfl⟩ := written
  rw [← ends] at tells ⊢
  exact ⟨inner, forms_node row origin forms, forms_filled forms filled, tells,
    by rw [Node.height, Row.height, ← Nat.add_assoc, ← Nat.add_assoc]⟩

theorem written_while {level line inside next : Nat} {code : String} (origin : Option Nat) {e : Expr} {body : List Line}
    {stmts : List Stmt} (spells : Spells 0 0 code e) (ends : Ends line ("while " ++ code ++ ":") inside)
    (filled : body ≠ []) (written : Written (level + 1) body inside next stmts) :
    Written level (⟨level, "while " ++ code ++ ":", origin⟩ :: body) line next [⟨line, .whileLoop e stmts⟩] := by
  obtain ⟨row, tokens, text, heading, tested⟩ := test_row "while" ⟨_, _, rfl, by decide⟩ spells
  obtain ⟨inner, forms, present, tells, tall⟩ := suite_under origin text ends
    filled written
  exact ⟨[.node row inner], forms, Parser.tells_while present tells heading tested, tall⟩

def WrittenArms (level : Nat) (lines : List Line) (line next : Nat) (further : List Arm) (otherwise : Option Suite) :
    Prop :=
  ∃ nodes, Forms level nodes lines ∧ Arms nodes line further otherwise ∧ line + forestHeight nodes = next

theorem written_no_arms (level line : Nat) : WrittenArms level [] line line [] none :=
  ⟨[], rfl, Parser.arms_none line, rfl⟩

theorem written_else {origin : Option Nat} (filled : body ≠ []) (written : Written (level + 1) body (line + 1) next stmts) :
    WrittenArms level (⟨level, "else:", origin⟩ :: body) line next [] (some ⟨line, stmts⟩) := by
  obtain ⟨row, text, heading⟩ := bare_row "else" ⟨_, _, rfl, by decide⟩
  obtain ⟨inner, forms, present, tells, tall⟩ := suite_under origin text
    (ends_plain line _ (by decide)) filled written
  exact ⟨[.node row inner], forms, Parser.arms_else present tells heading, tall⟩

theorem node_lines {line : Nat} {middle : Nat} {node : Node} (tall : line + node.height = middle)
    (others : middle + forestHeight nodes = next) : line + forestHeight (node :: nodes) = next := by
  rw [forestHeight, ← Nat.add_assoc, tall, others]

theorem written_elif (level line inside middle next : Nat) (code : String) (origin : Option Nat) (e : Expr)
    (body others : List Line) (stmts : List Stmt) (further : List Arm) (otherwise : Option Suite)
    (spells : Spells 0 0 code e) (ends : Ends line ("elif " ++ code ++ ":") inside) (filled : body ≠ [])
    (written : Written (level + 1) body inside middle stmts)
    (arms : WrittenArms level others middle next further otherwise) :
    WrittenArms level (⟨level, "elif " ++ code ++ ":", origin⟩ :: body ++ others) line next
      (⟨line, e, stmts⟩ :: further) otherwise := by
  obtain ⟨row, tokens, text, heading, tested⟩ := test_row "elif" ⟨_, _, rfl, by decide⟩ spells
  obtain ⟨inner, forms, present, tells, rfl⟩ := suite_under origin text ends
    filled written
  obtain ⟨nodes, formsOthers, reads, lower⟩ := arms
  exact ⟨.node row inner :: nodes, forms_append forms formsOthers,
    Parser.arms_elif present tells heading tested reads,
    node_lines rfl lower⟩

theorem written_if {middle : Nat} {others : List Line} {further : List Arm} {otherwise : Option Suite}
    (spells : Spells 0 0 code e) (ends : Ends line ("if " ++ code ++ ":") inside) (filled : body ≠ [])
    (written : Written (level + 1) body inside middle stmts) (arms : WrittenArms level others middle next further otherwise) :
    Written level (⟨level, "if " ++ code ++ ":", origin⟩ :: body ++ others) line next
      [⟨line, .ifChain (⟨line, e, stmts⟩ :: further) otherwise⟩] := by
  obtain ⟨row, tokens, text, heading, tested⟩ := test_row "if" ⟨_, _, rfl, by decide⟩ spells
  obtain ⟨inner, forms, present, tells, rfl⟩ := suite_under origin text ends
    filled written
  obtain ⟨nodes, formsOthers, reads, lower⟩ := arms
  exact ⟨.node row inner :: nodes, forms_append forms formsOthers,
    Parser.tells_if present tells heading tested reads,
    node_lines rfl lower⟩

theorem written_for (each : ∀ p ∈ first :: others, Binds p.1 p.2) (spells : Spells 0 0 code e)
    (ends : Ends line ("for " ++ Text.joinWith ", " ((first :: others).map Prod.fst) ++ " in " ++ code ++ ":") inside)
    (filled : body ≠ []) (written : Written (level + 1) body inside next stmts) :
    Written level (⟨level, "for " ++ Text.joinWith ", " ((first :: others).map Prod.fst) ++ " in " ++ code ++ ":", origin⟩
      :: body) line next [⟨line, .forLoop ((first :: others).map Prod.snd) e stmts⟩] := by
  obtain ⟨head, tail, values, all, left⟩ := gives_targets each
  obtain ⟨c, cs, tokens, split, _, right, reads⟩ := spells_denotes spells (by decide)
  have filledLeft := Parser.opens_ne_nil (Parser.separated_opens (tail.map Prod.fst) (all head List.mem_cons_self).2.2)
  have back := gives_append (gives_word "in".toList ⟨_, _, rfl, by decide⟩) (by simp) (gives_blank_before right) (by decide)
  have whole := gives_append left filledLeft (gives_blank_before back) (by decide)
  have chars : (Text.joinWith ", " ((first :: others).map Prod.fst) ++ " in " ++ code).toList =
      (Text.joinWith ", " ((first :: others).map Prod.fst)).toList ++ ' ' :: 'i' :: 'n' :: ' ' :: c :: cs := by
    rw [String.toList_append, String.toList_append, List.append_assoc, split]
    rfl
  obtain ⟨row, text, heading⟩ := header_row "for" (Text.joinWith ", " ((first :: others).map Prod.fst) ++ " in " ++ code) _
    ⟨_, _, rfl, by decide⟩ (chars ▸ whole) (by simp) (by simp)
  have same : row.text = "for " ++ Text.joinWith ", " ((first :: others).map Prod.fst) ++ " in " ++ code ++ ":" := by
    rw [text]
    rfl
  obtain ⟨inner, forms, present, tells, tall⟩ := suite_under origin same ends
    filled written
  rw [← values]
  exact ⟨[.node row inner], forms, Parser.tells_for present tells heading
    (fun p member => ⟨(all p member).1, (all p member).2.2⟩) reads, tall⟩

def WrittenHandler (level : Nat) (lines : List Line) (line next : Nat) (found : Option Handler) : Prop :=
  ∃ nodes, Forms level nodes lines ∧ Handles nodes line found ∧ line + forestHeight nodes = next

def WrittenFinal (level : Nat) (lines : List Line) (line next : Nat) (found : Option Suite) : Prop :=
  ∃ nodes, Forms level nodes lines ∧ Finishes nodes line found ∧ line + forestHeight nodes = next ∧
    ∀ node ∈ nodes.head?, ∀ t ∈ (Parser.Node.row node).tokens.head?, t.token = .name "finally"

theorem written_no_handler (level line : Nat) : WrittenHandler level [] line line none :=
  ⟨[], rfl, Parser.handles_none line, rfl⟩

theorem written_no_final (level line : Nat) : WrittenFinal level [] line line none :=
  ⟨[], rfl, Parser.finishes_none line, rfl, by simp⟩

theorem identifier_plain (valid : isIdentifier name) : Text.Plain name := by
  obtain ⟨⟨c, cs, split, starts, continues⟩, _, _⟩ := identifier_word valid
  intro member
  rw [split] at member
  rcases List.mem_cons.mp member with rfl | member
  · exact absurd starts (by decide)
  · exact absurd (continues '\n' member) (by decide)

theorem written_except (level line next : Nat) (name : String) (origin : Option Nat) (body : List Line)
    (stmts : List Stmt) (valid : isIdentifier name) (filled : body ≠ [])
    (written : Written (level + 1) body (line + 1) next stmts) :
    WrittenHandler level (⟨level, "except Exception as " ++ name ++ ":", origin⟩ :: body) line next
      (some ⟨line, some name, stmts⟩) := by
  obtain ⟨word, free, _⟩ := identifier_word valid
  obtain ⟨c, cs, split, starts, continues⟩ := word
  have last := gives_weaken (gives_word name.toList ⟨c, cs, split, starts, continues⟩) ends_token_name
  rw [String.ofList_toList, split] at last
  have middle := gives_append (gives_word "as".toList ⟨_, _, rfl, by decide⟩) (by simp) (gives_blank_before last) (by decide)
  have whole := gives_append (gives_word "Exception".toList ⟨_, _, rfl, by decide⟩) (by simp) (gives_blank_before middle)
    (by decide)
  have chars : ("Exception as " ++ name).toList = "Exception".toList ++ ' ' :: ("as".toList ++ ' ' :: c :: cs) := by
    rw [String.toList_append, split]
    rfl
  obtain ⟨row, text, heading⟩ := header_row "except" ("Exception as " ++ name) _ ⟨_, _, rfl, by decide⟩ (chars ▸ whole)
    (by simp) (by simp)
  have same : row.text = "except Exception as " ++ name ++ ":" := by
    rw [text]
    simp only [String.append_assoc]
    rfl
  have plain : Text.Plain ("except Exception as " ++ name ++ ":") := by
    simp only [Text.plain_append, identifier_plain name valid, and_true]
    decide
  obtain ⟨inner, forms, present, tells, tall⟩ := suite_under origin same
    (ends_plain line _ plain) filled written
  exact ⟨[.node row inner], forms, Parser.handles_exception present tells heading free, tall⟩

theorem written_finally {level line next : Nat} (origin : Option Nat) {body : List Line} {stmts : List Stmt}
    (filled : body ≠ []) (written : Written (level + 1) body (line + 1) next stmts) :
    WrittenFinal level (⟨level, "finally:", origin⟩ :: body) line next (some ⟨line, stmts⟩) := by
  obtain ⟨row, text, heading⟩ := bare_row "finally" ⟨_, _, rfl, by decide⟩
  obtain ⟨inner, forms, present, tells, tall⟩ := suite_under origin text
    (ends_plain line _ (by decide)) filled written
  refine ⟨[.node row inner], forms, Parser.finishes_suite present tells heading, tall, ?_⟩
  intro node here t member
  obtain rfl := Option.some.inj here
  obtain ⟨first, others, headed, isFirst, _⟩ := List.map_eq_cons_iff.mp heading
  rw [Parser.Node.row, headed] at member
  obtain rfl := Option.some.inj member
  exact isFirst

theorem written_try (level line middle last next : Nat) (origin : Option Nat) (body handlers finals : List Line)
    (stmts : List Stmt) (handler : Option Handler) (final : Option Suite) (filled : body ≠ [])
    (written : Written (level + 1) body (line + 1) middle stmts) (handled : WrittenHandler level handlers middle last handler)
    (finished : WrittenFinal level finals last next final) (present : (handler.isNone && final.isNone) = false) :
    Written level (⟨level, "try:", origin⟩ :: body ++ handlers ++ finals) line next
      [⟨line, .tryBlock stmts handler final⟩] := by
  obtain ⟨row, text, heading⟩ := bare_row "try" ⟨_, _, rfl, by decide⟩
  obtain ⟨inner, forms, nonempty, tells, rfl⟩ := suite_under origin text
    (ends_plain line _ (by decide)) filled written
  obtain ⟨caught, formsCaught, handles, rfl⟩ := handled
  obtain ⟨ending, formsEnding, finishes, rfl, opens⟩ := finished
  rw [List.append_assoc]
  refine ⟨.node row inner :: (caught ++ ending),
    forms_append forms (forms_append formsCaught formsEnding),
    Parser.tells_try nonempty tells heading handles finishes opens present,
    node_lines rfl ?_⟩
  rw [forest_height_append, ← Nat.add_assoc]

theorem written_main {line next : Nat} (origin : Option Nat) {body : List Line} {stmts : List Stmt} (filled : body ≠ [])
    (written : Written 1 body (line + 1) next stmts) :
    Written 0 (⟨0, "def main(args):", origin⟩ :: body) line next
      [⟨line, .define ⟨"main", ["args"], stmts, line⟩⟩] := by
  have arguments := gives_bracketed ('(', ')') (by decide)
    (gives_raise (gives_word "args".toList ⟨_, _, rfl, by decide⟩) (Nat.zero_le 1)) (by decide)
  have whole := gives_append (gives_word "main".toList ⟨_, _, rfl, by decide⟩) (by simp) arguments (by decide)
  obtain ⟨row, text, heading⟩ := header_row "def" "main(args)" _ ⟨_, _, rfl, by decide⟩
    (gives_weaken whole fun _ _ => rfl) (by simp) (by simp)
  obtain ⟨inner, forms, present, tells, tall⟩ := suite_under origin text
    (ends_plain line _ (by decide)) filled written
  exact ⟨[.node row inner], forms, Parser.tells_define present tells heading (by decide)
    (by decide), tall⟩

theorem parse_written (width : Nat) (wide : 1 ≤ width) (filled : lines ≠ [])
    (written : Written 0 lines 1 next stmts) : Program.parse (Code.render width lines) = .ok ⟨stmts⟩ := by
  obtain ⟨nodes, forms, tells, _⟩ := written
  exact Parser.parse_tokens tells (tokenize_forest wide (forms_filled forms filled) forms)

theorem parse_expression {text : String} {e : Expr} (spells : Spells 0 0 text e) :
    Program.parse text = .ok ⟨[⟨1, .expr e⟩]⟩ := by
  have parsed := parse_written 1 (by decide) (by simp) (written_expr 0 none rfl spells)
  have rendered : Code.render 1 [⟨0, text, none⟩] = text := String.empty_append
  rwa [rendered] at parsed

end Flowstep.Script
