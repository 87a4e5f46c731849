import Flowstep.Proofs.Reading
import Mathlib.Tactic.Choose

/-!
Texts that spell expressions: cut into tokens and read, they give the expression wherever they stand.
-/
namespace Flowstep.Script

open Script.Parser (Reads Extends Opens Positional startsAt separated Goes constants)

-- The tokens of a piece of text, whatever lines they are on: the first is on the line where the text starts, and
-- none ends a line.
def Gives (floor : Nat) (stops : Char → Bool) (cs : List Char) (tokens : List Token) : Prop :=
  ∃ ts, Scans floor stops cs ts ∧ ts.map (·.token) = tokens ∧ (∀ t ∈ ts, t.token.isNewline = false) ∧
    ∀ t ∈ ts.head?, t.line = 0

theorem gives_nil (floor : Nat) (stops : Char → Bool) : Gives floor stops [] [] := by
  refine ⟨[], ?_, rfl, by simp, by simp⟩
  intro rest line depth indents read _ _
  rfl

variable {floor : Nat} {stops : Char → Bool} {cs : List Char} {tokens : List Token}

theorem gives_weaken {fewer : Char → Bool} (gives : Gives floor stops cs tokens) (fits : ∀ c, fewer c → stops c) :
    Gives floor fewer cs tokens := by
  obtain ⟨ts, scans, rest⟩ := gives
  exact ⟨ts, scans_weaken scans fits, rest⟩

theorem gives_raise {low high : Nat} (gives : Gives low stops cs tokens) (higher : low ≤ high) :
    Gives high stops cs tokens := by
  obtain ⟨ts, scans, rest⟩ := gives
  exact ⟨ts, scans_raise scans higher, rest⟩

variable {c : Char} {more : List Token}

theorem gives_append {last : Char → Bool} {front : List Char} {back : List Char}
    (first : Gives floor stops front tokens) (filled : tokens ≠ []) (second : Gives floor last (c :: back) more)
    (fits : stops c) :
    Gives floor last (front ++ c :: back) (tokens ++ more) := by
  obtain ⟨ts, scans, rfl, flat, starts⟩ := first
  obtain ⟨us, others, rfl, level, _⟩ := second
  obtain ⟨t, ts, rfl⟩ := List.exists_cons_of_ne_nil (mt List.map_eq_nil_iff.mpr filled)
  refine ⟨_, scans_append scans others fits, by rw [List.map_append, shift_tokens], ?_, by simpa using starts⟩
  intro u member
  rcases List.mem_append.mp member with early | late
  · exact flat u early
  · obtain ⟨v, inside, rfl⟩ := List.mem_map.mp late
    exact level v inside

theorem gives_blank_before (gives : Gives floor stops (c :: cs) tokens) : Gives floor stops (' ' :: c :: cs) tokens := by
  obtain ⟨ts, scans, rest⟩ := gives
  have whole := scans_append (scans_raise scans_blank (Nat.zero_le floor)) scans rfl
  have unmoved : shift 0 ts = ts := by simp [shift]
  exact ⟨ts, by simpa [unmoved] using whole, rest⟩

variable {left right : String} (pair : Char × Char) {word : String} {base : Expr}

theorem gives_bracketed (listed : pair ∈ brackets) (inner : Gives (floor + 1) stops cs tokens) (fits : stops pair.2) :
    Gives floor anyChar (pair.1 :: cs ++ [pair.2])
      (.op (String.singleton pair.1) :: (tokens ++ [.op (String.singleton pair.2)])) := by
  obtain ⟨ts, scans, rfl, flat, _⟩ := inner
  refine ⟨_, scans_bracketed listed scans fits, by simp, ?_, by simp⟩
  intro t member
  rcases List.mem_cons.mp member with rfl | member
  · rfl
  rcases List.mem_append.mp member with inside | last
  · exact flat t inside
  · rw [List.mem_singleton.mp last]
    rfl

variable {token : Token}

theorem gives_single (scans : Scans 0 stops cs [⟨token, 0⟩]) (flat : token.isNewline = false) : Gives 0 stops cs [token] :=
  ⟨_, scans, rfl, by simpa using flat, by simp⟩

theorem gives_word (cs : List Char) (word : IsWord cs) : Gives 0 endsName cs [.name (String.ofList cs)] :=
  gives_single (scans_word word) rfl

theorem gives_dot : Gives 0 anyChar ['.'] [.op "."] := gives_single scans_dot rfl

theorem gives_colon : Gives 0 anyChar [':'] [.op ":"] := gives_single scans_colon rfl

theorem gives_symbol (c : Char) (listed : c ∈ ['=', '+', '-', '*', '/', '%', '<', '>']) :
    Gives 0 endsSymbol [c] [.op (String.singleton c)] := gives_single (scans_symbol c listed) rfl

theorem gives_blank : Gives 0 anyChar [' '] [] := ⟨[], scans_blank, rfl, by simp, by simp⟩

theorem gives_comma : Gives 0 anyChar [',', ' '] [.op ","] :=
  gives_append (gives_single scans_comma rfl) (by simp) gives_blank rfl

-- A text that stands between others and goes on with none of them.
structure Gap (sep : String) (between : List Token) : Prop where
  gives : Gives 0 anyChar sep.toList between
  filled : between ≠ []
  ends : ∃ c cs, sep.toList = c :: cs ∧ endsToken c

variable {sep : String} {between : List Token}

theorem comma_gap : Gap ", " [.op ","] := ⟨gives_comma, by simp, ',', [' '], by decide⟩

theorem spaced_gap {symbol : String} (gives : Gives 0 stops symbol.toList between) (filled : between ≠ [])
    (present : symbol.toList ≠ []) (apart : stops ' ') : Gap (" " ++ symbol ++ " ") between := by
  have whole := gives_append gives filled gives_blank apart
  obtain ⟨c, cs, split⟩ := List.exists_cons_of_ne_nil present
  rw [split] at whole
  have chars : (" " ++ symbol ++ " ").toList = ' ' :: (c :: cs ++ [' ']) := by
    rw [String.toList_append, String.toList_append, split]
    rfl
  refine ⟨?_, filled, ' ', _, chars, by decide⟩
  rw [chars]
  simpa using gives_blank_before whole

theorem symbol_gap (op : BinOp) : Gap (" " ++ op.symbol ++ " ") [.op op.symbol] := by
  cases op <;> exact spaced_gap (gives_symbol _ (by decide)) (by simp) (by decide) (by decide)

theorem word_gap (word : String) (isWord : IsWord word.toList) : Gap (" " ++ word ++ " ") [.name word] := by
  have gives := gives_word word.toList isWord
  rw [String.ofList_toList] at gives
  obtain ⟨_, _, split, _⟩ := isWord
  exact spaced_gap gives (by simp) (by simp [split]) (by decide)

theorem compare_gap (op : CmpOp) : Gap (" " ++ op.symbol ++ " ") (Parser.compareTokens op) := by
  have isIn : IsWord "in".toList := ⟨'i', ['n'], by decide⟩
  cases op with
  | lt | gt => exact spaced_gap (gives_symbol _ (by decide)) (List.cons_ne_nil _ _) (by decide) (by decide)
  | isIn => exact word_gap "in" isIn
  | notIn =>
    have isNot := gives_word "not".toList ⟨'n', ['o', 't'], by decide⟩
    exact spaced_gap (gives_append isNot (by simp) (gives_blank_before (gives_word _ isIn)) (by decide))
      (List.cons_ne_nil _ _) (by decide) (by decide)
  | _ => exact spaced_gap (gives_single (scans_double _ (by decide)) rfl) (List.cons_ne_nil _ _) (by decide) rfl

theorem joined_begins (sep : String) (words : List String) (begins : word.toList = c :: cs) :
    ∃ more, (Text.joinWith sep (word :: words)).toList = c :: more := by
  cases words with
  | nil => exact ⟨cs, by simp [Text.joinWith, begins]⟩
  | cons next words =>
    rw [Text.join_with_cons, String.toList_append, String.toList_append, begins]
    exact ⟨_, rfl⟩

theorem gives_joined {α : Type} (gap : Gap sep between) (parts : List α) (texts : α → String) (tokens : α → List Token)
    (each : ∀ p ∈ parts, (texts p).toList ≠ [] ∧ tokens p ≠ [] ∧ Gives floor endsToken (texts p).toList (tokens p)) :
    Gives floor endsToken (Text.joinWith sep (parts.map texts)).toList (between.intercalate (parts.map tokens)) := by
  induction parts with
  | nil => exact gives_nil floor endsToken
  | cons part parts ih =>
    obtain ⟨_, filled, gives⟩ := each part List.mem_cons_self
    cases parts with
    | nil => simpa [Text.joinWith] using gives
    | cons next parts =>
      have others := ih fun p member => each p (List.mem_cons_of_mem _ member)
      obtain ⟨c, cs, begins⟩ := List.exists_cons_of_ne_nil (each next (by simp)).1
      obtain ⟨more, split⟩ := joined_begins sep (parts.map texts) begins
      obtain ⟨d, ds, separates, ends⟩ := gap.ends
      rw [List.map_cons, split] at others
      have back := gives_append (gives_raise gap.gives (Nat.zero_le floor)) gap.filled others rfl
      rw [separates] at back
      have whole := gives_append gives filled back ends
      rw [List.map_cons, List.map_cons, List.map_cons, List.map_cons, Text.join_with_cons, List.intercalate_cons_cons,
        String.toList_append, String.toList_append, List.append_assoc, split, separates, List.append_assoc]
      exact whole

-- How the tokens of an expression begin: like no end of a bracket, no sign of a looser level and no keyword argument.
structure Leads (level : Nat) (tokens : List Token) : Prop where
  opens : Opens tokens (startsAt level)
  unnamed : ∀ name rest, tokens ≠ .name name :: .op "=" :: rest

variable {level : Nat} {looser : Nat}

theorem leads_below (leads : Leads level tokens) (below : looser ≤ level) : Leads looser tokens :=
  ⟨Parser.starts_below below leads.opens, leads.unnamed⟩

theorem leads_append (leads : Leads level tokens) (other : ∀ rest, more ≠ .op "=" :: rest) :
    Leads level (tokens ++ more) := by
  obtain ⟨⟨t, rest, rfl, starts⟩, unnamed⟩ := leads
  refine ⟨⟨t, rest ++ more, rfl, starts⟩, ?_⟩
  intro name others same
  obtain ⟨isName, after⟩ := List.cons.inj same
  cases rest with
  | nil => exact other others after
  | cons u rest => exact unnamed name rest (by rw [isName, (List.cons.inj after).1])

-- A number takes a dot after it.
def isNumber : Expr → Bool
  | .lit (.int _) | .lit (.float _) => true
  | _ => false

def endsExpr (level : Nat) (e : Expr) (c : Char) : Bool := endsToken c || c = '.' && level = 7 && !isNumber e

-- The text is read as the expression wherever it stands, with at least `floor` brackets open and before a
-- character and a token that do not go on with it.
def Spells (floor level : Nat) (text : String) (e : Expr) : Prop :=
  ∃ c cs tokens, text.toList = c :: cs ∧ startsText c ∧ Gives floor (endsExpr level e) (c :: cs) tokens ∧
    Extends level tokens e ∧ Leads level tokens

def Denotes (floor : Nat) (text : String) (e : Expr) : Prop :=
  ∃ c cs tokens, text.toList = c :: cs ∧ startsText c ∧ Gives floor endsToken (c :: cs) tokens ∧ Reads 0 tokens e

variable {text : String} {e : Expr}

theorem gives_plain (gives : Gives floor (endsExpr level e) cs tokens) : Gives floor endsToken cs tokens :=
  gives_weaken gives fun c ends => by rw [endsExpr, ends]; rfl

theorem gives_any (gives : Gives floor anyChar cs tokens) : Gives floor stops cs tokens := gives_weaken gives fun _ _ => rfl

theorem spells_below (spells : Spells floor level text e) (low : level ≤ 7) (below : looser ≤ level) :
    Spells floor looser text e := by
  obtain ⟨c, cs, tokens, split, begins, gives, grows, leads⟩ := spells
  refine ⟨c, cs, tokens, split, begins, gives_weaken gives fun c ends => ?_,
    Parser.extends_below low below leads.opens grows, leads_below leads below⟩
  simp only [endsExpr, Bool.or_eq_true, Bool.and_eq_true, decide_eq_true_eq] at ends ⊢
  exact ends.imp_right fun ⟨⟨dot, high⟩, number⟩ => ⟨⟨dot, by omega⟩, number⟩

theorem spells_loose (spells : Spells floor 7 text e) : Spells floor 0 text e := spells_below spells (by decide) (by decide)

theorem spells_denotes (spells : Spells floor level text e) (low : level ≤ 7) : Denotes floor text e := by
  obtain ⟨c, cs, tokens, split, begins, gives, grows, _⟩ := spells_below spells low (Nat.zero_le level)
  exact ⟨c, cs, tokens, split, begins, gives_plain gives, Parser.extends_reads grows⟩

theorem spells_positional (spells : Spells floor level text e) (low : level ≤ 7) :
    text.toList ≠ [] ∧ ∃ tokens, Gives floor endsToken text.toList tokens ∧ Positional tokens e := by
  obtain ⟨c, cs, tokens, split, _, gives, grows, ⟨t, more, first, starts, _⟩, unnamed⟩ :=
    spells_below spells low (Nat.zero_le level)
  rw [split]
  exact ⟨by simp, tokens, gives_plain gives, ⟨Parser.extends_reads grows, t, more, first, starts⟩, unnamed⟩

def isIdentifier (word : String) : Bool :=
  match word.toList with
  | [] => false
  | c :: rest => startsName c && rest.all continuesName && !isReserved word && !constants.contains word

theorem identifier_word {word : String} (valid : isIdentifier word) :
    IsWord word.toList ∧ isReserved word = false ∧ word ∉ constants := by
  unfold isIdentifier at valid
  split at valid
  · cases valid
  · rename_i c rest split
    simp only [Bool.and_eq_true, Bool.not_eq_true', List.all_eq_true] at valid
    obtain ⟨⟨⟨starts, continues⟩, free⟩, variable_⟩ := valid
    refine ⟨⟨c, rest, split, starts, continues⟩, free, ?_⟩
    simpa using variable_

def pathExpr : List String → Expr
  | [] => .name ""
  | root :: rest => rest.foldl .attr (.name root)

theorem spells_single (split : text.toList = c :: cs) (begins : startsText c) (gives : Gives 0 (endsExpr 7 e) (c :: cs) [token])
    (atom : Parser.Atom [token] e) (starts : startsAt 7 token) : Spells floor 7 text e :=
  ⟨c, cs, [token], split, begins, gives_raise gives (Nat.zero_le floor), Parser.extends_atom atom, ⟨token, [], rfl, starts⟩,
    by simp⟩

theorem ends_expr_name {level : Nat} {e : Expr} (c : Char) (ends : endsExpr level e c) : endsName c := by
  simp only [endsExpr, Bool.or_eq_true, Bool.and_eq_true, decide_eq_true_eq] at ends
  rcases ends with ends | ⟨⟨rfl, _⟩, _⟩
  · exact ends_token_name c ends
  · decide

theorem gives_name (isWord : IsWord word.toList) : Gives floor (endsExpr level e) word.toList [.name word] := by
  have gives := gives_raise (gives_word word.toList isWord) (Nat.zero_le floor)
  rw [String.ofList_toList] at gives
  exact gives_weaken gives (ends_expr_name)

theorem spells_atom_word (isWord : IsWord word.toList) (free : isReserved word = false)
    (atom : Parser.Atom [.name word] e) : Spells floor 7 word e := by
  obtain ⟨c, cs, split, starts, continues⟩ := isWord
  have gives : Gives 0 (endsExpr 7 e) word.toList [.name word] := gives_name ⟨c, cs, split, starts, continues⟩
  rw [split] at gives
  exact spells_single split (start_text starts) gives atom (Parser.name_starts_at free 7)

theorem spells_word (word : String) (valid : isIdentifier word) : Spells floor 7 word (.name word) := by
  obtain ⟨isWord, free, variable_⟩ := identifier_word valid
  exact spells_atom_word isWord free (Parser.atom_name free variable_)

-- A call, an attribute or a subscript of an operand.
theorem spells_tail {after : String} {d : Char} {ds : List Char} {symbol : String} {tail : List Token}
    (spells : Spells floor 7 text base) (chars : after.toList = d :: ds) (apart : endsExpr 7 base d) (other : symbol ≠ "=")
    (gives : Gives floor (endsExpr 7 e) (d :: ds) (.op symbol :: tail))
    (goes : ∀ more whole, Goes 7 more e whole → Goes 7 (.op symbol :: (tail ++ more)) base whole) :
    Spells floor 7 (text ++ after) e := by
  obtain ⟨c, cs, tokens, split, begins, front, grows, leads⟩ := spells
  refine ⟨c, cs ++ d :: ds, _, ?_, begins, gives_append front (Parser.opens_ne_nil leads.opens) gives apart,
    fun more whole tails => ?_, leads_append leads (by simp [other])⟩
  · rw [String.toList_append, split, chars, List.cons_append]
  · rw [List.append_assoc]
    exact grows _ _ (goes more whole tails)

theorem spells_attr {name : String} (spells : Spells floor 7 text base) (valid : isIdentifier name)
    (other : isNumber base = false) : Spells floor 7 (text ++ "." ++ name) (.attr base name) := by
  obtain ⟨isWord, free, _⟩ := identifier_word valid
  have gives : Gives floor (endsExpr 7 (.attr base name)) name.toList [.name name] := gives_name isWord
  obtain ⟨c, cs, split, _⟩ := isWord
  rw [split] at gives
  have dotted := gives_append (gives_raise gives_dot (Nat.zero_le floor)) (by simp) gives rfl
  rw [String.append_assoc]
  refine spells_tail spells (by simp [split]) (by simp [endsExpr, other]) (by decide) dotted fun more whole tails => ?_
  exact Parser.goes_attr free tails

theorem numeral_begins (numeral : Numeral cs token) : ∃ c tail, cs = c :: tail ∧ startsText c := by
  obtain ⟨c, tail, split, digit⟩ := numeral.starts
  have all : ∀ c ∈ ['\n', ' ', '\t', '\r', '#', '='], Decimal.isDigit c = false := by decide
  refine ⟨c, tail, split, decide_eq_true fun listed => ?_⟩
  rw [all c listed] at digit
  cases digit

theorem spells_number_attr {n : Nat} {name : String} (fits : (n : Int) < 2 ^ 63) (valid : isIdentifier name) :
    Spells floor 7 (toString n ++ "." ++ name) (.attr (.lit (.int (Int64.ofInt n))) name) := by
  obtain ⟨isWord, free, _⟩ := identifier_word valid
  obtain ⟨c, tail, split, begins⟩ := numeral_begins (numeral_nat n fits)
  have scans := scans_number_attr n fits isWord
  have gives : Gives 0 endsName (c :: (tail ++ '.' :: name.toList)) [.int (Int64.ofInt n), .op ".", .name name] := by
    rw [split, String.ofList_toList] at scans
    exact ⟨_, scans, rfl, by simp [Token.isNewline], by simp⟩
  refine ⟨c, tail ++ '.' :: name.toList, _, by simp [split], begins,
    gives_raise (gives_weaken gives ends_expr_name) (Nat.zero_le floor), fun more whole tails => ?_,
    ⟨_, _, rfl, trivial, by simp, by simp⟩, by simp⟩
  exact Parser.extends_atom (Parser.atom_literal rfl) _ _ (Parser.goes_attr free tails)

theorem spells_path (path : List String) (filled : path ≠ []) (valid : ∀ w ∈ path, isIdentifier w) :
    Spells floor 7 (Text.joinWith "." path) (pathExpr path) := by
  obtain ⟨root, rest, rfl⟩ := List.exists_cons_of_ne_nil filled
  obtain ⟨first, others⟩ := List.forall_mem_cons.mp valid
  clear filled valid
  have grown (text : String) (base : Expr) (spells : Spells floor 7 text base) (number : isNumber base = false) :
      Spells floor 7 (rest.foldl (fun text word => text ++ "." ++ word) text) (rest.foldl .attr base) := by
    induction rest generalizing text base with
    | nil => exact spells
    | cons word rest ih =>
      have next := spells_attr spells (others word List.mem_cons_self) number
      exact ih (fun w member => others w (List.mem_cons_of_mem _ member)) _ _ next rfl
  exact grown root (.name root) (spells_word root first) rfl

theorem spells_bracket_tail (listed : pair ∈ brackets) {inner : List Char} {tokens : List Token}
    (gives : Gives (floor + 1) endsToken inner tokens) (spells : Spells floor 7 text base)
    (goes : ∀ more whole, Goes 7 more e whole → Goes 7 (.op (String.singleton pair.1) ::
      (tokens ++ .op (String.singleton pair.2) :: more)) base whole) :
    Spells floor 7 (text ++ String.ofList (pair.1 :: inner ++ [pair.2])) e := by
  have closes : endsToken pair.2 ∧ endsToken pair.1 ∧ String.singleton pair.1 ≠ "=" := by
    have all : ∀ pair ∈ brackets, endsToken pair.2 ∧ endsToken pair.1 ∧ String.singleton pair.1 ≠ "=" := by decide
    exact all pair listed
  exact spells_tail spells String.toList_ofList (by rw [endsExpr, closes.2.1]; rfl) closes.2.2
    (gives_any (gives_bracketed pair listed gives closes.1)) fun more whole tails => by simpa using goes more whole tails

theorem starts_apart (begins : startsText c) : endsSymbol c := by
  rw [endsSymbol, decide_eq_true_eq]
  rintro rfl
  cases begins

theorem gives_keyword {name code : String} {e : Expr} (word : IsWord name.toList) (denotes : Denotes floor code e) :
    ∃ tokens, Gives floor endsToken (name ++ "=" ++ code).toList (.name name :: .op "=" :: tokens) ∧ Reads 0 tokens e := by
  obtain ⟨c, cs, tokens, split, begins, gives, reads⟩ := denotes
  have equals := gives_append (gives_raise (gives_symbol '=' (by decide)) (Nat.zero_le floor)) (by simp) gives
    (starts_apart begins)
  have whole := gives_append (gives_raise (gives_word name.toList word) (Nat.zero_le floor)) (by simp) equals (by decide)
  refine ⟨tokens, ?_, reads⟩
  rw [String.toList_append, String.toList_append, List.append_assoc, split]
  rw [String.ofList_toList] at whole
  exact whole

theorem spells_call (spells : Spells floor 7 text base) (parts : List (String × Expr))
    (named : List (String × String × Expr)) (each : ∀ p ∈ parts, Spells (floor + 1) 0 p.1 p.2)
    (values : ∀ p ∈ named, IsWord p.1.toList ∧ Denotes (floor + 1) p.2.1 p.2.2) :
    Spells floor 7 (text ++ "(" ++ Text.joinWith ", " (parts.map Prod.fst ++ named.map fun p => p.1 ++ "=" ++ p.2.1) ++ ")")
      (.call base (parts.map Prod.snd) (named.map fun p => (p.1, p.2.2))) := by
  choose! filled tokens gives positional using fun p member => spells_positional (each p member) (by decide)
  choose! more others reads using fun p member => gives_keyword (values p member).1 (values p member).2
  have joined := gives_joined comma_gap (parts.map .inl ++ named.map .inr)
    (Sum.elim Prod.fst fun p => p.1 ++ "=" ++ p.2.1) (Sum.elim tokens fun p => .name p.1 :: .op "=" :: more p) (by
      simp only [List.forall_mem_append, List.forall_mem_map]
      exact ⟨fun p member => ⟨filled p member, Parser.opens_ne_nil (positional p member).1.2, gives p member⟩,
        fun p member => ⟨by simp, by simp, others p member⟩⟩)
  rw [List.map_append, List.map_append, List.map_map, List.map_map, List.map_map, List.map_map] at joined
  have whole := spells_bracket_tail ('(', ')') (by decide) joined spells fun more whole tails =>
    Parser.goes_call (Parser.arguments_given Prod.fst positional reads) tails
  simpa [String.append_assoc] using whole

theorem spells_index {code : String} (spells : Spells floor 7 text base)
    (inner : Spells (floor + 1) 0 code e) : Spells floor 7 (text ++ "[" ++ code ++ "]") (.index base e) := by
  obtain ⟨_, tokens, gives, phrase, _⟩ := spells_positional inner (by decide)
  have whole := spells_bracket_tail ('[', ']') (by decide) gives spells fun more whole tails =>
    Parser.goes_index phrase tails
  simpa [String.append_assoc] using whole

theorem spells_bracket (listed : pair ∈ brackets) {inner : List Char} {tokens : List Token}
    (gives : Gives (floor + 1) endsToken inner tokens)
    (atom : Parser.Atom (.op (String.singleton pair.1) :: (tokens ++ [.op (String.singleton pair.2)])) e) :
    Spells floor 7 (String.ofList (pair.1 :: inner ++ [pair.2])) e := by
  have all : ∀ pair ∈ brackets, endsToken pair.2 ∧ startsText pair.1 ∧ (String.singleton pair.1 = "(" ∨
    String.singleton pair.1 = "[" ∨ String.singleton pair.1 = "\x7b") := by decide
  obtain ⟨closes, begins, symbol⟩ := all pair listed
  refine ⟨pair.1, inner ++ [pair.2], _, String.toList_ofList, begins, gives_any (gives_bracketed pair listed gives closes),
    Parser.extends_atom atom, ⟨_, _, rfl, .inr symbol, fun _ => by simp, fun _ => ?_⟩, by simp⟩
  rcases symbol with same | same | same <;> simp [same]

theorem spells_paren (spells : Spells (floor + 1) level text e) (low : level ≤ 7) : Spells floor 7 ("(" ++ text ++ ")") e := by
  obtain ⟨_, tokens, gives, ⟨reads, t, more, split, starts⟩, _⟩ := spells_positional spells low
  have whole := spells_bracket ('(', ')') (by decide) gives
    (Parser.atom_paren reads ⟨t, more, split, Parser.starts_symbol starts (by decide)⟩)
  simpa [String.append_assoc] using whole

theorem spells_list (parts : List (String × Expr)) (each : ∀ p ∈ parts, Spells (floor + 1) 0 p.1 p.2) :
    Spells floor 7 ("[" ++ Text.joinWith ", " (parts.map Prod.fst) ++ "]") (.list (parts.map Prod.snd)) := by
  choose! filled tokens gives positional using fun p member => spells_positional (each p member) (by decide)
  have joined := gives_joined comma_gap parts Prod.fst tokens fun p member =>
    ⟨filled p member, Parser.opens_ne_nil (positional p member).1.2, gives p member⟩
  have spells := spells_bracket ('[', ']') (by decide) joined (Parser.atom_list fun p member => (positional p member).1)
  simpa [String.append_assoc] using spells

theorem spells_dict (parts : List ((String × Expr) × String × Expr))
    (each : ∀ p ∈ parts, Spells (floor + 1) 0 p.1.1 p.1.2 ∧ Spells (floor + 1) 0 p.2.1 p.2.2) :
    Spells floor 7 ("\x7b" ++ Text.joinWith ", " (parts.map fun p => p.1.1 ++ ": " ++ p.2.1) ++ "\x7d")
      (.dict (parts.map fun p => (p.1.2, p.2.2))) := by
  choose! _ keys first key using fun p member => spells_positional (each p member).1 (by decide)
  choose! filled values second value using fun p member => spells_positional (each p member).2 (by decide)
  have joined := gives_joined comma_gap parts (fun p => p.1.1 ++ ": " ++ p.2.1)
    (fun p => keys p ++ .op ":" :: values p) (by
      intro p member
      refine ⟨by simp, by simp, ?_⟩
      obtain ⟨c, cs, split⟩ := List.exists_cons_of_ne_nil (filled p member)
      have back := second p member
      rw [split] at back
      have colon := gives_append (gives_raise gives_colon (Nat.zero_le _)) (by simp) (gives_blank_before back) rfl
      have whole := gives_append (first p member) (Parser.opens_ne_nil (key p member).1.2) colon (by decide)
      rwa [String.toList_append, String.toList_append, List.append_assoc, split])
  have spells := spells_bracket ('\x7b', '\x7d') (by decide) joined
    (Parser.atom_dict fun p member => ⟨(key p member).1, (value p member).1⟩)
  simpa [String.append_assoc] using spells

theorem spells_constant (listed : word ∈ constants) (atom : Parser.Atom [.name word] e) : Spells floor 7 word e := by
  have all : ∀ word ∈ constants, (∃ c cs, word.toList = c :: cs ∧ startsName c ∧ ∀ d ∈ cs, continuesName d) ∧
      isReserved word = false := by
    simp only [constants, List.forall_mem_cons]
    exact ⟨⟨⟨'T', ['r', 'u', 'e'], by decide⟩, by decide⟩, ⟨⟨'F', ['a', 'l', 's', 'e'], by decide⟩, by decide⟩,
      ⟨⟨'N', ['o', 'n', 'e'], by decide⟩, by decide⟩, by simp⟩
  exact spells_atom_word (all word listed).1 (all word listed).2 atom

theorem spells_quote (text : String) : Spells floor 7 (Code.quote text) (.lit (.str text)) := by
  have split : (Code.quote text).toList = '"' :: (text.toList.flatMap Code.quotedChar ++ ['"']) :=
    String.toList_ofList
  have gives := gives_single (scans_quote text) rfl
  rw [split] at gives
  exact spells_single split (by decide) (gives_any gives) (Parser.atom_str text) ⟨trivial, by simp, by simp⟩

inductive IsNumber : Token → Value → Prop where
  | int (n : Int64) : IsNumber (.int n) (.int n)
  | float (x : Float) : IsNumber (.float x) (.float x)

variable {v : Value}

theorem spells_numeral (number : IsNumber token v) (numeral : Numeral text.toList token) : Spells floor 7 text (.lit v) := by
  obtain ⟨c, cs, split, begins⟩ := numeral_begins numeral
  have facts : Parser.literal? token = some v ∧ token.isNewline = false ∧ startsAt 7 token ∧ isNumber (.lit v) = true := by
    cases number <;> exact ⟨rfl, rfl, ⟨trivial, by simp, by simp⟩, rfl⟩
  obtain ⟨literal, solid, starts, numeric⟩ := facts
  have gives := gives_single (scans_numeral numeral) solid
  rw [split] at gives
  refine spells_single split begins (gives_weaken gives fun c ends => ?_) (Parser.atom_literal literal) starts
  rw [endsExpr, numeric, Bool.not_true, Bool.and_false, Bool.or_false] at ends
  exact ends_token_number c ends

theorem gives_loose (loose : level ≠ 7) (gives : Gives floor endsToken cs tokens) : Gives floor (endsExpr level e) cs tokens := by
  refine gives_weaken gives fun c ends => ?_
  simpa [endsExpr, loose] using ends

-- A sign before an operand.
theorem spells_minus (whole : String) (spells : Spells floor 6 text e) (signed : whole.toList = '-' :: text.toList) :
    Spells floor 6 whole (Parser.negate e) := by
  obtain ⟨c, cs, tokens, split, begins, gives, grows, _⟩ := spells
  have minus := gives_append (gives_raise (gives_symbol '-' (by decide)) (Nat.zero_le floor)) (by simp) (gives_plain gives)
    (starts_apart begins)
  exact ⟨'-', c :: cs, .op "-" :: tokens, by rw [signed, split], by decide, gives_loose (by decide) minus,
    Parser.extends_single (by decide) (Parser.reads_minus (Parser.extends_reads grows)),
    ⟨_, _, rfl, .inl rfl, by simp, by simp⟩, by simp⟩

theorem spells_negative {whole : String} (number : IsNumber token v) (numeral : Numeral cs token)
    (signed : whole.toList = '-' :: cs) : Spells floor 6 whole (Parser.negate (.lit v)) := by
  have same : (String.ofList cs).toList = cs := String.toList_ofList
  rw [← same] at numeral signed
  exact spells_minus whole (spells_below (spells_numeral number numeral) (by decide) (by decide)) signed

theorem spells_not (spells : Spells floor 2 text e) : Spells floor 2 ("not " ++ text) (.not e) := by
  obtain ⟨c, cs, tokens, split, begins, gives, grows, leads⟩ := spells
  have word : IsWord "not".toList := ⟨'n', ['o', 't'], by decide⟩
  have denied := gives_append (gives_raise (gives_word _ word) (Nat.zero_le floor)) (by simp)
    (gives_blank_before (gives_plain gives)) (by decide)
  refine ⟨'n', 'o' :: 't' :: ' ' :: c :: cs, .name "not" :: tokens, ?_, by decide, gives_loose (by decide) denied,
    Parser.extends_single (by decide) (Parser.reads_not (Parser.extends_reads grows)),
    ⟨_, _, rfl, .inr rfl, by simp, by simp⟩, ?_⟩
  · rw [String.toList_append, split]
    rfl
  · rintro name rest same
    obtain ⟨t, more, rfl, starts, _⟩ := leads.opens
    exact Parser.starts_symbol starts (by decide) (List.cons.inj (List.cons.inj same).2).1

theorem spells_between {inner outer : Nat} {a b : Expr} (gap : Gap sep between)
    (first : Spells floor inner left a) (second : Spells floor outer right b) (loose : level ≠ 7) (below : level ≤ inner)
    (apart : .op "=" ∉ between)
    (joins : ∀ front back, Extends inner front a → Reads outer back b → Extends level (front ++ (between ++ back)) e) :
    Spells floor level (left ++ sep ++ right) e := by
  obtain ⟨c, cs, front, begins, starts, gives, grows, leads⟩ := first
  obtain ⟨d, ds, back, split, _, others, more, _⟩ := second
  obtain ⟨blank, blanks, separates, ends⟩ := gap.ends
  have after := gives_append (gives_raise gap.gives (Nat.zero_le floor)) gap.filled (gives_plain others) rfl
  rw [separates] at after
  have whole := gives_append (gives_plain gives) (Parser.opens_ne_nil leads.opens) after ends
  refine ⟨c, _, _, ?_, starts, gives_loose loose whole, joins front back grows (Parser.extends_reads more),
    leads_append (leads_below leads below) ?_⟩
  · rw [String.toList_append, String.toList_append, begins, split, separates, List.append_assoc]
    rfl
  · rintro rest same
    obtain ⟨t, ts, rfl⟩ := List.exists_cons_of_ne_nil gap.filled
    exact apart (by rw [(List.cons.inj same).1]; exact List.mem_cons_self)

-- Operands with an operator between them that groups to the left.
theorem spells_link {symbol : Token} {build : Expr → Expr → Expr} {a b : Expr}
    (listed : level ∈ Parser.chainLevels) (known : Parser.Consumes (Parser.chainOp level) [symbol] (some build) Parser.anyToken)
    (tight : Parser.tightness symbol ≤ level + 1) (other : .op "=" ≠ symbol) (gap : Gap sep [symbol]) (first : Spells floor level left a)
    (second : Spells floor (level + 1) right b) : Spells floor level (left ++ sep ++ right) (build a b) := by
  refine spells_between gap first second ?_ (Nat.le_refl _) (by simpa using other) fun front back grows reads more whole goes => ?_
  · rintro rfl
    exact absurd listed (by decide)
  · rw [List.append_assoc]
    exact grows _ _ (Parser.goes_link listed known tight reads goes)

def binLevel : BinOp → Nat
  | .add | .sub => 4
  | _ => 5

theorem spells_bin (op : BinOp) {a b : Expr} (first : Spells floor (binLevel op) left a)
    (second : Spells floor (binLevel op + 1) right b) :
    Spells floor (binLevel op) (left ++ (" " ++ op.symbol ++ " ") ++ right) (.bin op a b) := by
  exact spells_link (by cases op <;> decide) (Parser.consumes_token fun _ _ _ => by cases op <;> rfl) (by cases op <;> decide)
    (by cases op <;> simp [BinOp.symbol]) (symbol_gap op) first second

theorem spells_sum {first : String × Expr} {terms : List (String × Expr)}
    (each : ∀ p ∈ first :: terms, Spells floor 5 p.1 p.2) :
    Spells floor 4 (Text.joinWith " + " ((first :: terms).map Prod.fst))
      ((terms.map Prod.snd).foldl (.bin .add) first.2) := by
  obtain ⟨start, others⟩ := List.forall_mem_cons.mp each
  have summed (text : String) (base : Expr) (spells : Spells floor 4 text base) : Spells floor 4
      ((terms.map Prod.fst).foldl (fun text term => text ++ " + " ++ term) text) ((terms.map Prod.snd).foldl (.bin .add) base) := by
    clear each
    induction terms generalizing text base with
    | nil => exact spells
    | cons term terms ih =>
      obtain ⟨next, others⟩ := List.forall_mem_cons.mp others
      exact ih others _ _ (spells_bin .add spells next)
  exact summed first.1 first.2 (spells_below start (by decide) (by decide))

theorem spells_compare (op : CmpOp) {a b : Expr} (first : Spells floor 4 left a)
    (second : Spells floor 4 right b) : Spells floor 3 (left ++ (" " ++ op.symbol ++ " ") ++ right) (.cmp op a b) :=
  spells_between (compare_gap op) first second (by decide) (by decide) (by cases op <;> simp [Parser.compareTokens, CmpOp.symbol])
    fun front back grows reads => Parser.extends_single (by decide)
      (Parser.reads_compare op (Parser.extends_reads grows) reads)

theorem spells_nat (n : Nat) (fits : (n : Int) < 2 ^ 63) :
    Spells floor 7 (toString n) (.lit (.int (Int64.ofInt n))) := by
  refine spells_numeral (.int (Int64.ofInt n)) ?_
  rw [Nat.toString_eq_repr, Nat.toList_repr]
  exact numeral_nat n fits

theorem spells_int {n : Int} (above : -2 ^ 63 < n) (below : n < 2 ^ 63) :
    Spells floor 6 (toString n) (.lit (.int (Int64.ofInt n))) := by
  cases n with
  | ofNat n => exact spells_below (spells_nat n below) (by decide) (by decide)
  | negSucc n =>
    have spells : Spells floor 6 _ _ := spells_negative (.int (Int64.ofInt (n + 1 : Nat))) (numeral_nat (n + 1) (by omega))
      (negative_chars n)
    have value : Parser.negate (.lit (.int (Int64.ofInt (n + 1 : Nat)))) = .lit (.int (Int64.ofInt (Int.negSucc n))) := by
      rw [Parser.negate, ← Int64.ofInt_neg]
      rfl
    rwa [value] at spells

end Flowstep.Script
