import Flowstep.Proofs.Sentences

/-!
Trees of lines read as statements: every node is a statement or a clause of one, and what is indented below it is
its block.
-/
namespace Flowstep.Script

mutual

def Node.size : Node → Nat
  | .node row inner => row.tokens.length + 1 + (if inner.isEmpty then 0 else forestSize inner + 2)

def forestSize : List Node → Nat
  | [] => 0
  | node :: rest => node.size + forestSize rest

end

mutual

theorem node_tokens_length {line close : Nat} : ∀ node : Node, (node.tokens line close).length = node.size
  | .node row inner => by
    have inside := forest_tokens_length (line + row.height + 1) close inner
    rw [Node.tokens, Node.size]
    cases inner.isEmpty with
    | true => simp [shift_length]
    | false =>
      simp [shift_length]
      omega

theorem forest_tokens_length (line close : Nat) :
    ∀ nodes : List Node, (forestTokens line close nodes).length = forestSize nodes
  | [] => rfl
  | node :: rest => by
    rw [forestTokens, forestSize, List.length_append, node_tokens_length node, forest_tokens_length _ _ rest]

end

theorem forest_size_append (front back : List Node) : forestSize (front ++ back) = forestSize front + forestSize back := by
  induction front with
  | nil => simp [forestSize]
  | cons node front ih => rw [List.cons_append, forestSize, forestSize, ih, Nat.add_assoc]

theorem forest_height_append (front back : List Node) :
    forestHeight (front ++ back) = forestHeight front + forestHeight back := by
  induction front with
  | nil => simp [forestHeight]
  | cons node front ih => rw [List.cons_append, forestHeight, forestHeight, ih, Nat.add_assoc]

theorem forest_rows_append (level : Nat) (front back : List Node) :
    forestRows level (front ++ back) = forestRows level front ++ forestRows level back := by
  induction front with
  | nil => rfl
  | cons node front ih => rw [List.cons_append, forestRows, forestRows, ih, List.append_assoc]

theorem forest_tokens_append (line close : Nat) (front back : List Node) (more : back ≠ []) :
    forestTokens line close (front ++ back) =
      forestTokens line (line + forestHeight front) front ++ forestTokens (line + forestHeight front) close back := by
  induction front generalizing line with
  | nil => simp [forestTokens, forestHeight]
  | cons node front ih =>
    have last : (front ++ back).isEmpty = false := by
      cases back with
      | nil => exact absurd rfl more
      | cons node back => simp
    rw [List.cons_append, forestTokens, forestTokens, ih, forestHeight, List.append_assoc, ← Nat.add_assoc, last]
    cases empty : front.isEmpty with
    | true =>
      obtain rfl := List.isEmpty_iff.mp empty
      simp [forestHeight]
    | false => rfl

theorem forest_tokens_split (line close : Nat) (front back : List Node) :
    ∃ between, forestTokens line close (front ++ back) =
      forestTokens line between front ++ forestTokens (line + forestHeight front) close back := by
  cases back with
  | nil => exact ⟨close, by simp [forestTokens]⟩
  | cons node back => exact ⟨_, forest_tokens_append line close front (node :: back) (by simp)⟩

namespace Parser

theorem eats_newline : Eats eatNewline .newline where
  here := by
    rintro ⟨_, n⟩ u ts rfl
    rfl
  other := by
    rintro ⟨token, n⟩ ts other
    cases token <;> first | rfl | exact absurd rfl other

theorem eats_indent : Eats eatIndent .indent where
  here := by
    rintro ⟨_, n⟩ u ts rfl
    rfl
  other := by
    rintro ⟨token, n⟩ ts other
    cases token <;> first | rfl | exact absurd rfl other

theorem eats_dedent : Eats eatDedent .dedent where
  here := by
    rintro ⟨_, n⟩ u ts rfl
    rfl
  other := by
    rintro ⟨token, n⟩ ts other
    cases token <;> first | rfl | exact absurd rfl other

theorem looks_end : Looks atEnd .eof where
  here := by
    rintro ⟨_, n⟩ ts rfl
    rfl
  other := by
    rintro ⟨token, n⟩ ts other
    cases token <;> first | rfl | exact absurd rfl other

def clauseWords : List String := ["elif", "else", "except", "finally"]

def compoundWords : List String := ["def", "if", "while", "for", "try"]

def Fresh (t : Token) : Prop := ∀ word ∈ clauseWords, t ≠ .name word

def startsStatement : Token → Prop
  | .name word => word ∉ clauseWords
  | .newline | .indent | .dedent | .eof => False
  | _ => True

theorem statement_fresh (t : Token) (starts : startsStatement t) : Fresh t := by
  rintro word listed rfl
  exact starts listed

def Node.row : Node → Row
  | .node row _ => row

variable {α β : Type} {wanted follows : Token → Prop}

theorem forest_begins {line close : Nat} {node : Node} {nodes : List Node} (last : List Located)
    (opens : ∀ t ∈ (Node.row node).tokens.head?, wanted t.token) :
    Begins ((forestTokens line close (node :: nodes) ++ last).map (·.token)) follows wanted := by
  obtain ⟨row, inner⟩ := node
  obtain ⟨first, others, split, _⟩ := row.starts
  rw [forestTokens, Node.tokens, split]
  exact opens first (by rw [Node.row, split]; rfl)

-- The nodes are read as one statement in front of whatever starts no clause. It needs fuel for all its tokens.
def Speaks (nodes : List Node) (line : Nat) (stmt : Stmt) : Prop :=
  ∀ close fuel, 16 * forestSize nodes ≤ fuel + 1 → Takes (statement fuel) (forestTokens line close nodes) stmt Fresh

inductive Tells : List Node → Nat → List Stmt → Prop where
  | nil (line : Nat) : Tells [] line []
  | cons (node : Node) (nodes others : List Node) (line : Nat) (stmt : Stmt) (stmts : List Stmt)
      (opens : ∀ t ∈ (Node.row node).tokens.head?, startsStatement t.token) (speaks : Speaks (node :: nodes) line stmt)
      (rest : Tells others (line + forestHeight (node :: nodes)) stmts) :
      Tells (node :: nodes ++ others) line (stmt :: stmts)

variable {nodes : List Node} {node : Node} {stmt : Stmt} {line : Nat}

theorem tells_single
    (opens : ∀ t ∈ (Node.row node).tokens.head?, startsStatement t.token) (speaks : Speaks (node :: nodes) line stmt) :
    Tells (node :: nodes) line [stmt] := by
  have alone := Tells.cons node nodes [] line stmt [] opens speaks (.nil _)
  rw [List.append_nil] at alone
  exact alone

theorem tells_append {front back : List Node} {first second : List Stmt} (tells : Tells front line first)
    (others : Tells back (line + forestHeight front) second) : Tells (front ++ back) line (first ++ second) := by
  induction tells with
  | nil line => exact others
  | cons node nodes middle line stmt stmts opens speaks _ ih =>
    rw [forest_height_append, ← Nat.add_assoc] at others
    rw [List.append_assoc]
    exact .cons node nodes _ line stmt _ opens speaks (ih others)

theorem node_size_pos (node : Node) : 2 ≤ node.size := by
  obtain ⟨row, inner⟩ := node
  obtain ⟨first, others, split, _⟩ := row.starts
  rw [Node.size, split, List.length_cons]
  omega

variable {stmts : List Stmt}

-- A loop over statements that stops at the last tokens.
structure Repeats (reader : Nat → List Stmt → Parser (List Stmt)) (last : List Located) (follows : Token → Prop) : Prop where
  fresh : Begins (last.map (·.token)) follows Fresh
  step : ∀ fuel read ts all, Begins (ts.map (·.token)) follows startsStatement →
    Takes (statement fuel >>= fun stmt => reader fuel (stmt :: read)) ts all follows → Takes (reader (fuel + 1) read) ts all follows
  stop : ∀ fuel read, Takes (reader (fuel + 1) read) last read.reverse follows

theorem reads_all {reader : Nat → List Stmt → Parser (List Stmt)} {last : List Located} (repeats : Repeats reader last follows)
    (tells : Tells nodes line stmts) (close fuel : Nat) (read : List Stmt) (enough : 16 * forestSize nodes < fuel) :
    Takes (reader fuel read) (forestTokens line close nodes ++ last) (read.reverse ++ stmts) follows := by
  induction tells generalizing fuel read with
  | nil line =>
    obtain _ | fuel := fuel
    · omega
    rw [List.append_nil]
    exact repeats.stop fuel read
  | cons node nodes others line stmt stmts opens speaks tells ih =>
    rw [forest_size_append] at enough
    have large := node_size_pos node
    have bound : 2 ≤ forestSize (node :: nodes) := by rw [forestSize]; omega
    obtain _ | fuel := fuel
    · omega
    obtain ⟨between, split⟩ := forest_tokens_split line close (node :: nodes) others
    have recursion := ih fuel (stmt :: read) (by omega)
    rw [List.reverse_cons, List.append_assoc] at recursion
    refine repeats.step fuel read _ _ (forest_begins last opens) ?_
    rw [split, List.append_assoc]
    refine takes_bind (speaks between fuel (by omega)) ?_ recursion
    cases tells with
    | nil => exact repeats.fresh
    | cons _ _ _ _ _ _ opens => exact begins_imp (forest_begins last opens) statement_fresh

theorem block_repeats (close : Nat) : Repeats block [⟨.dedent, close⟩] anyToken where
  fresh := by
    rintro word _ same
    cases same
  step fuel read ts all begins rest := by
    have other {t : Token} (starts : startsStatement t) : t ≠ .dedent ∧ t ≠ .eof ∧ t ≠ .newline := by
      refine ⟨?_, ?_, ?_⟩ <;> rintro rfl <;> exact starts
    exact takes_peek (begins_imp begins fun _ starts => (other starts).1) eats_dedent.other
      (takes_peek (begins_imp begins fun _ starts => (other starts).2.1) looks_end.other
        (takes_peek (begins_imp begins fun _ starts => (other starts).2.2) eats_newline.other rest))
  stop fuel read := takes_eat eats_dedent rfl (takes_pure _)

theorem top_level_repeats : Repeats topLevel [] (· = .eof) where
  fresh := by
    rintro _ rfl word _ same
    cases same
  step fuel read ts all begins rest := by
    have other {t : Token} (starts : startsStatement t) : t ≠ .eof ∧ t ≠ .newline := by
      refine ⟨?_, ?_⟩ <;> rintro rfl <;> exact starts
    exact takes_peek (begins_imp begins fun _ starts => (other starts).1) looks_end.other
      (takes_peek (begins_imp begins fun _ starts => (other starts).2) eats_newline.other rest)
  stop fuel read := takes_peek begins_same looks_end.here (takes_pure _)

def Heading (row : Row) (word : String) (middle : List Token) : Prop :=
  row.tokens.map (·.token) = .name word :: (middle ++ [.op ":"])

variable {word : String} {middle : List Token}

theorem heading_opens {row : Row} {inner : List Node} (heading : Heading row word middle) (fresh : word ∉ clauseWords) :
    ∀ t ∈ (Node.row (.node row inner)).tokens.head?, startsStatement t.token := by
  intro t member
  obtain ⟨first, others, split, isFirst, _⟩ := List.map_eq_cons_iff.mp heading
  rw [Node.row, split] at member
  obtain rfl := Option.some.inj member
  rw [isFirst]
  exact fresh

variable {inner : List Node}

theorem heading_tokens {row : Row} (heading : Heading row word middle) (filled : inner ≠ []) (line close : Nat) :
    ∃ (between : List Located) (n : Nat), between.map (·.token) = middle ∧
      (Node.node row inner).tokens line close = ⟨.name word, line⟩ :: (between ++ ⟨.op ":", n⟩ :: ⟨.newline, line + row.height⟩ ::
        ⟨.indent, line + row.height + 1⟩ :: (forestTokens (line + row.height + 1) close inner ++ [⟨.dedent, close⟩])) := by
  obtain ⟨⟨_, n⟩, _, split, rfl, same⟩ := List.map_eq_cons_iff.mp heading
  obtain ⟨between, _, rfl, isMiddle, same⟩ := List.map_eq_append_iff.mp same
  obtain ⟨⟨_, m⟩, _, rfl, rfl, none⟩ := List.map_eq_cons_iff.mp same
  obtain rfl := List.map_eq_nil_iff.mp none
  obtain ⟨_, _, begins, zero⟩ := row.starts
  rw [split] at begins
  obtain ⟨rfl, _⟩ := List.cons.inj begins
  obtain rfl : n = 0 := zero
  have present : inner.isEmpty = false := by simpa using filled
  refine ⟨shift line between, line + m, by rw [shift_tokens, isMiddle], ?_⟩
  rw [Node.tokens, split, present]
  simp [shift]

theorem suite_reads (tells : Tells inner line stmts) (close fuel : Nat) {colon newline indent : Located}
    (isColon : colon.token = .op ":") (isNewline : newline.token = .newline) (isIndent : indent.token = .indent)
    (enough : 16 * forestSize inner + 2 ≤ fuel) :
    Takes (suite fuel) (colon :: newline :: indent :: (forestTokens line close inner ++ [⟨.dedent, close⟩])) stmts anyToken := by
  obtain _ | fuel := fuel
  · omega
  have body := reads_all (block_repeats close) tells close fuel [] (by omega)
  have colon_ : Takes (expectOp ":") [colon] () anyToken := consumes_op ":" [colon] (by rw [List.map_singleton, isColon])
  exact takes_bind colon_ begins_any (takes_eat eats_newline isNewline (takes_eat eats_indent isIndent body))

def startsSimple (t : Token) : Prop := startsStatement t ∧ ∀ word ∈ compoundWords, t ≠ .name word

theorem statement_is_simple (fuel : Nat) (t : Located) (ts : List Located) (starts : startsSimple t.token) :
    statement (fuel + 1) (t :: ts) = simpleLine fuel t.line (t :: ts) := by
  obtain ⟨token, n⟩ := t
  obtain ⟨starts, others⟩ := starts
  rw [statement, then_run (line_run _ _), then_run (current_run _ _)]
  dsimp only at ⊢
  split
  case h_1 => exact absurd starts (by simp [startsStatement])
  case h_7 => rfl
  all_goals exact absurd rfl (others _ (by decide))

theorem tells_sentence {row : Row} (line : Nat) {tokens : List Token} {kind : StmtKind}
    (same : row.tokens.map (·.token) = tokens) (opens : Opens tokens startsSimple) (sentence : Sentence tokens kind) :
    Tells [.node row []] line [⟨line, kind⟩] := by
  obtain ⟨first, others, split, starts⟩ := opens_located opens same
  obtain ⟨_, _, begins, zero⟩ := row.starts
  rw [split] at begins
  obtain ⟨rfl, _⟩ := List.cons.inj begins
  refine tells_single ?_ fun close fuel enough => ?_
  · intro t member
    rw [Node.row, split] at member
    obtain rfl := Option.some.inj member
    exact starts.1
  · have counted : row.tokens.length = tokens.length := by rw [← same, List.length_map]
    rw [forestSize, Node.size] at enough
    obtain _ | fuel := fuel
    · omega
    have kindRead := sentence fuel (by unfold fuelFor; omega) (shift line row.tokens) (by rw [shift_tokens, same])
    have ended : Takes (simpleLine fuel line) (shift line row.tokens ++ [⟨.newline, line + row.height⟩]) ⟨line, kind⟩ Fresh :=
      takes_bind kindRead rfl (takes_step (fun u more => then_run (eats_newline.here _ u more rfl) _) (by
        rintro ⟨token, n⟩ rest _
        cases token <;> rfl))
    intro t rest fresh
    have whole : forestTokens line close [.node row []] = shift line row.tokens ++ [⟨.newline, line + row.height⟩] := by
      simp [forestTokens, Node.tokens]
    have line_ : shift line row.tokens = ⟨first.token, line⟩ :: shift line others := by simp [split, shift, zero]
    have read := ended t rest fresh
    rw [line_] at read
    rw [whole, line_]
    exact (statement_is_simple fuel ⟨first.token, line⟩ _ starts).trans read

def Arms (nodes : List Node) (line : Nat) (further : List Arm) (otherwise : Option Suite) : Prop :=
  ∀ close fuel read, 16 * forestSize nodes ≤ fuel →
    Takes (arms (fuel + 1) read) (forestTokens line close nodes) (read.reverse ++ further, otherwise) Fresh

theorem arms_none (line : Nat) : Arms [] line [] none := by
  intro close fuel read _
  have none : Consumes (arms (fuel + 1) read) [] (read.reverse, none) Fresh :=
    consumes_line fun _ => consumes_skip (eats_word "elif") (fun _ fresh => fresh _ (by decide))
      (consumes_skip (eats_word "else") (fun _ fresh => fresh _ (by decide)) (consumes_pure _))
  rw [List.append_nil]
  exact none [] rfl

theorem separated_opens {part : List Token} (parts : List (List Token))
    (opens : Opens part wanted) : Opens (separated (part :: parts)) wanted := by
  obtain ⟨t, rest, rfl, starts⟩ := opens
  exact ⟨t, _, separated_cons _ _, starts⟩

theorem loop_targets (first : List Token × Target) {others : List (List Token × Target)}
    (read : ∀ p ∈ first :: others, Reads 7 p.1 (targetExpr p.2) ∧ Opens p.1 startsExpression) (deep here fuel : Nat)
    (before : List Target) (enough : fuelFor 7 (separated ((first :: others).map Prod.fst)).length ≤ deep)
    (more : others.length < fuel) :
    Consumes (loopTargets deep here fuel before) (separated ((first :: others).map Prod.fst))
      (before ++ (first :: others).map Prod.snd) (· = .name "in") := by
  induction others generalizing first before fuel with
  | nil =>
    obtain _ | fuel := fuel
    · omega
    rw [List.map_cons, separated_cons] at enough ⊢
    simp only [List.map_nil, chained, List.flatMap_nil, List.append_nil] at enough ⊢
    refine consumes_last ((read first List.mem_cons_self).1 deep enough) (by rintro _ rfl; decide) (consumes_targets
      (targets_run here first.2 []) (consumes_peek (show Begins [] (· = Token.name "in") (· ≠ .op ",") from ?_) (eats_op ",").other
        (consumes_peek begins_same (looks_word "in").here (consumes_pure _))))
    rintro _ rfl
    simp
  | cons second others ih =>
    obtain _ | fuel := fuel
    · omega
    rw [List.map_cons, List.map_cons, separated_cons, chained_cons] at enough ⊢
    simp only [fuelFor, List.length_append, List.length_cons] at enough more
    have recursion := ih second (fun p member => read p (List.mem_cons_of_mem _ member)) fuel (before ++ [first.2])
      (by rw [List.map_cons]; unfold fuelFor; omega) (by omega)
    rw [List.append_assoc] at recursion
    have notIn : Begins (separated (second.1 :: others.map Prod.fst)) (· = Token.name "in") (· ≠ .name "in") := by
      rw [separated_cons]
      exact opens_begins (read second (by simp)).2 (fun _ starts => starts_word starts (by decide)) _
    exact consumes_bind ((read first List.mem_cons_self).1 deep (by unfold fuelFor; omega)) (show tightness _ ≤ 7 by decide)
      (consumes_targets (targets_run here first.2 []) (consumes_cons (consumes_token fun _ _ _ => rfl)
        (consumes_peek notIn (looks_word "in").other recursion)))

def Handles (nodes : List Node) (line : Nat) (found : Option Handler) : Prop :=
  ∀ close fuel, 16 * forestSize nodes ≤ fuel →
    Takes (handler (fuel + 1)) (forestTokens line close nodes) found (· ≠ .name "except")

theorem handles_none (line : Nat) : Handles [] line none := by
  intro close fuel _
  have none : Consumes (handler (fuel + 1)) [] none (· ≠ .name "except") :=
    consumes_line fun _ => consumes_skip (eats_word "except") begins_same (consumes_pure _)
  exact none [] rfl

def Finishes (nodes : List Node) (line : Nat) (found : Option Suite) : Prop :=
  ∀ close fuel, 16 * forestSize nodes ≤ fuel →
    Takes (finalSuite (fuel + 1)) (forestTokens line close nodes) found (· ≠ .name "finally")

theorem finishes_none (line : Nat) : Finishes [] line none := by
  intro close fuel _
  have none : Consumes (finalSuite (fuel + 1)) [] none (· ≠ .name "finally") :=
    consumes_line fun _ => consumes_skip (eats_word "finally") begins_same (consumes_pure _)
  exact none [] rfl

section

variable {row : Row} (filled : inner ≠ []) (body : Tells inner (line + row.height + 1) stmts)
include filled body

-- A clause: its word, what stands before the colon, its block, and the clauses after it.
theorem takes_clause {p : Parser β} (head : Parser α) (f : α → List Stmt → Parser β) (a : α) {b : β} {close fuel : Nat}
    (heading : Heading row word middle) (enough : 16 * forestSize (.node row inner :: nodes) ≤ fuel + 2)
    (opened : ∀ ts, Takes (head >>= fun a => suite fuel >>= f a) ts b follows → Takes p (⟨.name word, line⟩ :: ts) b follows)
    (reads : fuelFor 0 middle.length < fuel → Consumes head middle a (· = .op ":"))
    (others : 16 * forestSize nodes + 16 ≤ fuel →
      Takes (f a stmts) (forestTokens (line + (Node.node row inner).height) close nodes) b follows) :
    Takes p (forestTokens line close (.node row inner :: nodes)) b follows := by
  obtain ⟨between, n, isMiddle, whole⟩ := heading_tokens heading filled line
    (if nodes.isEmpty then close else line + (Node.node row inner).height)
  have counted : row.tokens.length = middle.length + 2 := by
    rw [← List.length_map (·.token), heading]
    simp
  have present : inner.isEmpty = false := by simpa using filled
  rw [forestSize, Node.size, present, if_neg (by decide)] at enough
  rw [forestTokens, whole, List.cons_append, List.append_assoc]
  exact opened _ (takes_bind (reads (by unfold fuelFor; omega) between isMiddle) rfl
    (takes_bind (suite_reads body _ fuel rfl rfl rfl (by omega)) begins_any (others (by omega))))

variable {test : List Token} {e : Expr}

omit filled body in
theorem tells_compound {kind : StmtKind} (heading : Heading row word middle) (new : word ∉ clauseWords)
    (reads : ∀ close fuel, 16 * forestSize (.node row inner :: nodes) ≤ fuel + 2 →
      Takes (statement (fuel + 1)) (forestTokens line close (.node row inner :: nodes)) ⟨line, kind⟩ Fresh) :
    Tells (.node row inner :: nodes) line [⟨line, kind⟩] := by
  refine tells_single (heading_opens heading new) fun close fuel enough => ?_
  have large := node_size_pos (.node row inner)
  obtain _ | fuel := fuel
  · rw [forestSize] at enough
    omega
  · exact reads close fuel enough

omit filled body in
theorem consumes_test {fuel : Nat} (reads : Reads 0 test e) (deep : fuelFor 0 test.length < fuel) :
    Consumes (expression fuel) test e (· = .op ":") :=
  consumes_tight (reads fuel (Nat.le_of_lt deep)) (by rintro _ rfl; decide)

theorem tells_while (heading : Heading row "while" test) (reads : Reads 0 test e) :
    Tells [.node row inner] line [⟨line, .whileLoop e stmts⟩] :=
  tells_compound heading (by decide) fun _ _ enough => takes_clause filled body _ _ _ heading enough
    (fun _ rest => takes_line (takes_current (takes_advance rest))) (consumes_test reads) fun _ => takes_pure _

-- A clause with nothing between its word and the colon.
theorem takes_bare_clause {p : Parser β} {f : List Stmt → Parser β} {b : β} {close fuel : Nat}
    (heading : Heading row word []) (enough : 16 * forestSize (.node row inner :: nodes) ≤ fuel + 2)
    (opened : ∀ ts, Takes (suite fuel >>= f) ts b follows → Takes p (⟨.name word, line⟩ :: ts) b follows)
    (others : 16 * forestSize nodes + 16 ≤ fuel →
      Takes (f stmts) (forestTokens (line + (Node.node row inner).height) close nodes) b follows) :
    Takes p (forestTokens line close (.node row inner :: nodes)) b follows :=
  takes_clause filled body (pure ()) (fun _ => f) () heading enough opened (fun _ => consumes_pure ()) others

theorem arms_else (heading : Heading row "else" []) :
    Arms [.node row inner] line [] (some ⟨line, stmts⟩) := by
  intro close fuel read enough
  rw [List.append_nil]
  exact takes_bare_clause filled body heading (Nat.le_add_right_of_le enough)
    (fun _ rest => takes_line (takes_skip (eats_word "elif") (by simp) (takes_eat (eats_word "else") rfl rest)))
    fun _ => takes_pure _

variable {further : List Arm} {otherwise : Option Suite}

theorem arms_elif (heading : Heading row "elif" test) (reads : Reads 0 test e)
    (others : Arms nodes (line + (Node.node row inner).height) further otherwise) :
    Arms (.node row inner :: nodes) line (⟨line, e, stmts⟩ :: further) otherwise := by
  intro close fuel read enough
  refine takes_clause filled body _ _ _ heading (Nat.le_add_right_of_le enough)
    (fun _ rest => takes_line (takes_eat (eats_word "elif") rfl rest)) (consumes_test reads) fun left => ?_
  obtain _ | fuel := fuel
  · omega
  have later := others close fuel (⟨line, e, stmts⟩ :: read) (by omega)
  rwa [List.reverse_cons, List.append_assoc] at later

theorem tells_if (heading : Heading row "if" test) (reads : Reads 0 test e)
    (others : Arms nodes (line + (Node.node row inner).height) further otherwise) :
    Tells (.node row inner :: nodes) line [⟨line, .ifChain (⟨line, e, stmts⟩ :: further) otherwise⟩] := by
  refine tells_compound heading (by decide) fun close fuel enough => takes_clause filled body _ _ _ heading enough
    (fun _ rest => takes_line (takes_current (takes_advance rest))) (consumes_test reads) fun left => ?_
  obtain _ | fuel := fuel
  · omega
  exact takes_last (others close fuel [⟨line, e, stmts⟩] (by omega)) (fun _ => id) (takes_pure _)

def forHead (fuel : Nat) : Parser (List Target × Expr) := do
  let ts ← loopTargets fuel (← Parser.line) fuel []
  expectWord "in"
  let source ← expressionList fuel
  return (ts, source)

theorem tells_for {first : List Token × Target} {others : List (List Token × Target)} {source : List Token}
    (heading : Heading row "for" (separated ((first :: others).map Prod.fst) ++ .name "in" :: source))
    (read : ∀ p ∈ first :: others, Reads 7 p.1 (targetExpr p.2) ∧ Opens p.1 startsExpression) (reads : Reads 0 source e) :
    Tells [.node row inner] line [⟨line, .forLoop ((first :: others).map Prod.snd) e stmts⟩] := by
  refine tells_compound heading (by decide) fun close fuel enough => ?_
  have counted := separated_count ((first :: others).map Prod.fst) (List.forall_mem_map.mpr fun p member => opens_ne_nil (read p member).2)
  rw [List.length_map, List.length_cons] at counted
  refine takes_clause filled body (forHead fuel) (fun found body => pure ⟨line, .forLoop found.1 found.2 body⟩)
    ((first :: others).map Prod.snd, e) heading enough (fun ts rest => takes_line (takes_current (takes_advance ?_))) (fun deep => ?_) fun _ => takes_pure _
  · simpa only [forHead, bind_assoc, pure_bind] using rest
  · simp only [fuelFor, List.length_append, List.length_cons] at deep
    exact consumes_line fun here => consumes_bind (loop_targets first read fuel here fuel [] (by unfold fuelFor; omega) (by omega)) rfl
      (consumes_cons (consumes_word "in") (consumes_last (consumes_single reads (by unfold fuelFor; omega))
        (by rintro _ rfl; exact ⟨rfl, by simp⟩) (consumes_pure _)))

def exceptHead (fuel : Nat) : Parser (Option String) := do
  if ← atOp ":" then pure none
  else do
    let _ ← operand fuel
    if ← eatWord "as" then pure (some (← identifier)) else pure none

theorem handles_exception {name : String} (heading : Heading row "except" [.name "Exception", .name "as", .name name])
    (free : isReserved name = false) :
    Handles [.node row inner] line (some ⟨line, some name, stmts⟩) := by
  have spread {γ : Type} (c : Bool) (p q : Parser (Option String)) (f : Option String → Parser γ) :
      ((if c then p else q) >>= f) = if c then p >>= f else q >>= f := by cases c <;> rfl
  intro close fuel enough
  refine takes_clause filled body (exceptHead fuel) (fun name body => do
    if ← atWord "except" then refuse (← Parser.line) "only one except clause is supported"
    else return some ⟨line, name, body⟩) (some name) heading (Nat.le_add_right_of_le enough)
    (fun _ rest => takes_line (takes_eat (eats_word "except") rfl ?_)) (fun deep => ?_) fun _ => ?_
  · simpa only [exceptHead, bind_assoc, pure_bind, spread] using rest
  · have read : Consumes (operand fuel) [.name "Exception"] (.name "Exception") (Looser 7) :=
      extends_reads (extends_atom (atom_name (by decide) (by decide))) fuel (by simp [fuelFor] at deep ⊢; omega)
    refine consumes_miss (looks_op ":") (by simp [Begins]) ?_
    change Consumes _ ([.name "Exception"] ++ [.name "as", .name name]) _ _
    exact consumes_bind read (show tightness _ ≤ 7 by decide) (consumes_take (eats_word "as")
      (consumes_cons (consumes_identifier free) (consumes_pure _)))
  · exact consumes_miss (looks_word "except") begins_same (consumes_pure _) [] rfl

theorem finishes_suite (heading : Heading row "finally" []) :
    Finishes [.node row inner] line (some ⟨line, stmts⟩) :=
  fun _ _ enough => takes_bare_clause filled body heading (Nat.le_add_right_of_le enough)
    (fun _ rest => takes_line (takes_eat (eats_word "finally") rfl rest)) fun _ => takes_pure _

theorem tells_try {handlers finals : List Node} {handler_ : Option Handler} {final : Option Suite}
    (heading : Heading row "try" [])
    (handles : Handles handlers (line + (Node.node row inner).height) handler_)
    (finishes : Finishes finals (line + (Node.node row inner).height + forestHeight handlers) final)
    (opens : ∀ node ∈ finals.head?, ∀ t ∈ (Node.row node).tokens.head?, t.token = .name "finally")
    (some_ : (handler_.isNone && final.isNone) = false) :
    Tells (.node row inner :: (handlers ++ finals)) line [⟨line, .tryBlock stmts handler_ final⟩] := by
  refine tells_compound heading (by decide) fun close fuel enough => takes_bare_clause filled body heading enough
    (fun _ rest => takes_line (takes_current (takes_advance rest))) fun left => ?_
  obtain _ | fuel := fuel
  · omega
  rw [forest_size_append] at left
  obtain ⟨between, split⟩ := forest_tokens_split (line + (Node.node row inner).height) close handlers finals
  rw [split]
  refine takes_bind (handles between fuel (by omega)) ?_ (takes_last (finishes close fuel (by omega)) (fun _ fresh => fresh _ (by decide)) ?_)
  · cases finals with
    | nil => exact fun _ fresh => fresh _ (by decide)
    | cons node finals =>
      rw [← List.append_nil (forestTokens _ _ _)]
      have notExcept (t : Token) (finally_ : t = .name "finally") : t ≠ .name "except" := by simp [finally_]
      exact begins_imp (forest_begins [] (opens node rfl)) notExcept
  · rw [some_]
    exact takes_pure _

def defineHead (fuel : Nat) : Parser (String × List String) := do
  let name ← identifier
  let params ← parameters fuel
  return (name, params)

theorem tells_define {name parameter : String}
    (heading : Heading row "def" [.name name, .op "(", .name parameter, .op ")"]) (free : isReserved name = false)
    (open_ : isReserved parameter = false) :
    Tells [.node row inner] line [⟨line, .define ⟨name, [parameter], stmts, line⟩⟩] := by
  refine tells_compound heading (by decide) fun close fuel enough => takes_clause filled body (defineHead fuel)
    (fun found body => pure ⟨line, .define ⟨found.1, found.2, body, line⟩⟩) (name, [parameter]) heading enough
    (fun ts rest => takes_line (takes_current (takes_advance ?_))) (fun deep => ?_) fun _ => takes_pure _
  · simpa only [defineHead, bind_assoc, pure_bind] using rest
  · obtain _ | fuel := fuel
    · omega
    have listed : Consumes (bracketed ")" identifier (fuel + 1) []) [.name parameter] [parameter] (· = .op ")") :=
      consumes_miss (looks_op ")") (by simp [Begins]) (consumes_cons (consumes_identifier open_)
        (consumes_skip (eats_op ",") (by rintro _ rfl; simp) (consumes_pure _)))
    have given : Consumes (parameters (fuel + 1)) ([.op "("] ++ ([.name parameter] ++ [.op ")"])) [parameter] anyToken :=
      consumes_bind (consumes_op "(") begins_any (consumes_bind listed rfl (consumes_cons (consumes_op ")") (consumes_pure _)))
    exact consumes_cons (consumes_identifier free) (consumes_last given (fun _ _ => trivial) (consumes_pure _))

end

theorem parse_tokens {text : String} {close last : Nat} (tells : Tells nodes 1 stmts)
    (cut : tokenize text = .ok (forestTokens 1 close nodes ++ [⟨.eof, last⟩])) : Program.parse text = .ok ⟨stmts⟩ := by
  have sized := forest_tokens_length 1 close nodes
  have parsed := reads_all top_level_repeats tells close (16 * (forestSize nodes + 3)) [] (by omega) ⟨.eof, last⟩ [] rfl
  rw [List.append_nil] at parsed
  rw [Program.parse, cut]
  change Program.ofTokens _ = _
  rw [Program.ofTokens, parseFuel, List.length_append, sized]
  change (Parser.topLevel (16 * (forestSize nodes + 3)) [] _ >>= _) = _
  rw [parsed]
  rfl

end Parser

end Flowstep.Script
