import Flowstep.Proofs.Scanning
import Flowstep.Script.Parser

/-!
What the parser makes of the tokens of an expression, wherever the expression stands and as long as the
token after it does not go on with it.
-/
namespace Flowstep.Script.Parser

variable {α β : Type} {ts rest : List Located} {t u : Located}

theorem then_run {p : Parser α} {a : α} (read : p ts = .ok (a, rest)) (f : α → Parser β) : (p >>= f) ts = f a rest := by
  change (p ts >>= fun read => f read.1 read.2) = _
  rw [read]
  rfl

theorem pure_run (a : α) (ts : List Located) : (pure a : Parser α) ts = .ok (a, ts) := rfl

theorem current_run (t : Located) (ts : List Located) : current (t :: ts) = .ok (t.token, t :: ts) := rfl

theorem line_run (t : Located) (ts : List Located) : line (t :: ts) = .ok (t.line, t :: ts) := rfl

theorem advance_run (t u : Located) (ts : List Located) : advance (t :: u :: ts) = .ok ((), u :: ts) := rfl

-- A test for a token that leaves it where it is.
structure Looks (p : Parser Bool) (wanted : Token) : Prop where
  here : ∀ t ts, t.token = wanted → p (t :: ts) = .ok (true, t :: ts)
  other : ∀ t ts, t.token ≠ wanted → p (t :: ts) = .ok (false, t :: ts)

-- A test for a token that takes it.
structure Eats (p : Parser Bool) (wanted : Token) : Prop where
  here : ∀ t u ts, t.token = wanted → p (t :: u :: ts) = .ok (true, u :: ts)
  other : ∀ t ts, t.token ≠ wanted → p (t :: ts) = .ok (false, t :: ts)

theorem looks_op (symbol : String) : Looks (atOp symbol) (.op symbol) where
  here t ts here := by
    rw [atOp, then_run (current_run t ts), here]
    simp [pure_run]
  other t ts other := by
    rw [atOp, then_run (current_run t ts)]
    obtain ⟨token, n⟩ := t
    cases token with
    | op s =>
      have different : s ≠ symbol := by
        rintro rfl
        exact other rfl
      simp [pure_run, different]
    | _ => rfl

theorem looks_word (word : String) : Looks (atWord word) (.name word) where
  here t ts here := by
    rw [atWord, then_run (current_run t ts), here]
    simp [pure_run]
  other t ts other := by
    rw [atWord, then_run (current_run t ts)]
    obtain ⟨token, n⟩ := t
    cases token with
    | name s =>
      have different : s ≠ word := by
        rintro rfl
        exact other rfl
      simp [pure_run, different]
    | _ => rfl

section

variable {p : Parser Bool} {wanted : Token} {q r : Parser α}

theorem Eats.take (eats : Eats p wanted) (here : t.token = wanted) :
    (do if ← p then q else r) (t :: u :: ts) = q (u :: ts) := then_run (eats.here t u ts here) _

theorem Looks.eats (looks : Looks p wanted) : Eats (do if ← p then advance; return true else return false) wanted :=
  ⟨fun t u ts here => then_run (looks.here t (u :: ts) here) _, fun t ts other => then_run (looks.other t ts other) _⟩

end

theorem eats_op (symbol : String) : Eats (eatOp symbol) (.op symbol) := (looks_op symbol).eats

theorem eats_word (word : String) : Eats (eatWord word) (.name word) := (looks_word word).eats

-- The parser uses up the tokens and gives the value, in front of each token that may follow.
def Takes (p : Parser α) (ts : List Located) (a : α) (follows : Token → Prop) : Prop :=
  ∀ (t : Located) (rest : List Located), follows t.token → p (ts ++ t :: rest) = .ok (a, t :: rest)

-- The same on whatever lines the tokens stand.
def Consumes (p : Parser α) (tokens : List Token) (a : α) (follows : Token → Prop) : Prop :=
  ∀ ts : List Located, ts.map (·.token) = tokens → Takes p ts a follows

-- What is met first where the tokens stand, if that may follow them.
def Begins (tokens : List Token) (follows wanted : Token → Prop) : Prop :=
  match tokens with
  | [] => ∀ t, follows t → wanted t
  | t :: _ => wanted t

def anyToken (_ : Token) : Prop := True

section

variable {tokens more : List Token} {follows wanted : Token → Prop} {a : α} {b : β} {token : Token}

theorem begins_any : Begins tokens follows anyToken := by
  cases tokens with
  | nil => exact fun _ _ => trivial
  | cons t tokens => trivial

theorem begins_same : Begins [] follows follows := fun _ => id

theorem begins_imp {other : Token → Prop} (begins : Begins tokens follows wanted) (imp : ∀ t, wanted t → other t) :
    Begins tokens follows other := by
  cases tokens with
  | nil => exact fun t ok => imp t (begins t ok)
  | cons t tokens => exact imp t begins

theorem begins_located (begins : Begins (ts.map (·.token)) follows wanted) (ok : follows t.token) (rest : List Located) :
    ∃ u more, ts ++ t :: rest = u :: more ∧ wanted u.token := by
  cases ts with
  | nil => exact ⟨t, rest, rfl, begins t.token ok⟩
  | cons u ts => exact ⟨u, ts ++ t :: rest, rfl, begins⟩

section

variable {back : List Located} {p : Parser α} {f : α → Parser β}

theorem takes_pure (a : α) : Takes (pure a) [] a follows := fun _ _ _ => rfl

theorem takes_bind (first : Takes p ts a wanted) (begins : Begins (back.map (·.token)) follows wanted)
    (second : Takes (f a) back b follows) : Takes (p >>= f) (ts ++ back) b follows := by
  intro t rest ok
  obtain ⟨u, tail, next, fits⟩ := begins_located begins ok rest
  rw [List.append_assoc, next, then_run (first u tail fits), ← next]
  exact second t rest ok

theorem takes_last (first : Takes p ts a wanted) (imp : ∀ t, follows t → wanted t) (second : Takes (f a) [] b follows) :
    Takes (p >>= f) ts b follows := by
  have both := takes_bind (show Takes p ts a wanted from first) (show Begins ([].map Located.token) follows wanted from imp) second
  rwa [List.append_nil] at both

theorem takes_step {q : Parser α} (step : ∀ u more, p (t :: u :: more) = q (u :: more)) (rest : Takes q ts a follows) :
    Takes p (t :: ts) a follows := by
  intro u tail ok
  obtain ⟨v, more, next, _⟩ := begins_located (show Begins (ts.map (·.token)) follows anyToken from begins_any) ok tail
  rw [List.cons_append, next, step v more, ← next]
  exact rest u tail ok

theorem takes_line {f : Nat → Parser α} (rest : Takes (f t.line) (t :: ts) a follows) : Takes (line >>= f) (t :: ts) a follows := rest

theorem takes_current {f : Token → Parser α} (rest : Takes (f t.token) (t :: ts) a follows) :
    Takes (current >>= f) (t :: ts) a follows := rest

theorem takes_advance (rest : Takes p ts a follows) : Takes (advance >>= fun _ => p) (t :: ts) a follows :=
  takes_step (fun u more => then_run (advance_run t u more) _) rest

theorem takes_peek {p : Parser β} {f : β → Parser α} (begins : Begins (ts.map (·.token)) follows wanted)
    (known : ∀ t ts, wanted t.token → p (t :: ts) = .ok (b, t :: ts)) (rest : Takes (f b) ts a follows) :
    Takes (p >>= f) ts a follows := by
  intro t tail ok
  obtain ⟨u, more, next, holds⟩ := begins_located begins ok tail
  rw [next, then_run (known u more holds), ← next]
  exact rest t tail ok

end

section

variable {p : Parser α} {f : α → Parser β}

theorem consumes_pure (a : α) : Consumes (pure a) [] a follows := by
  intro ts same
  rw [List.map_eq_nil_iff.mp same]
  exact takes_pure a

theorem consumes_bind (first : Consumes p tokens a wanted) (begins : Begins more follows wanted)
    (second : Consumes (f a) more b follows) : Consumes (p >>= f) (tokens ++ more) b follows := by
  intro ts same
  obtain ⟨front, back, rfl, isFront, isBack⟩ := List.map_eq_append_iff.mp same
  exact takes_bind (first front isFront) (isBack ▸ begins) (second back isBack)

theorem consumes_last (first : Consumes p tokens a wanted) (imp : ∀ t, follows t → wanted t)
    (second : Consumes (f a) [] b follows) : Consumes (p >>= f) tokens b follows :=
  fun ts same => takes_last (first ts same) imp (second [] rfl)

theorem consumes_cons (first : Consumes p [token] a anyToken) (second : Consumes (f a) more b follows) :
    Consumes (p >>= f) (token :: more) b follows := by
  have both := consumes_bind first begins_any second
  exact both

theorem consumes_tight (read : Consumes p tokens a wanted) (imp : ∀ t, follows t → wanted t) : Consumes p tokens a follows :=
  fun ts same t rest ok => read ts same t rest (imp _ ok)

theorem consumes_advance (rest : Consumes p tokens a follows) :
    Consumes (advance >>= fun _ => p) (token :: tokens) a follows := by
  intro ts same
  obtain ⟨first, others, rfl, _, isOthers⟩ := List.map_eq_cons_iff.mp same
  exact takes_advance (rest others isOthers)

theorem consumes_token (reads : ∀ n u ts, p (⟨token, n⟩ :: u :: ts) = .ok (a, u :: ts)) : Consumes p [token] a anyToken := by
  intro ts same t rest _
  obtain ⟨⟨_, n⟩, _, rfl, rfl, none⟩ := List.map_eq_cons_iff.mp same
  rw [List.map_eq_nil_iff.mp none]
  exact reads n t rest

theorem consumes_line {f : Nat → Parser α} (rest : ∀ here, Consumes (f here) tokens a follows) :
    Consumes (line >>= f) tokens a follows := fun ts same t tail ok => rest _ ts same t tail ok

theorem consumes_look (wanted : Token → Prop) {f : Token → Parser α} (begins : Begins tokens follows wanted)
    (rest : ∀ token, wanted token → Consumes (f token) tokens a follows) : Consumes (current >>= f) tokens a follows := by
  intro ts same t tail ok
  obtain ⟨u, more, next, holds⟩ := begins_located (same ▸ begins) ok tail
  rw [next, then_run (current_run u more), ← next]
  exact rest u.token holds ts same t tail ok

theorem consumes_current {f : Token → Parser α} (rest : Consumes (f token) (token :: tokens) a follows) :
    Consumes (current >>= f) (token :: tokens) a follows := by
  refine consumes_look (· = token) rfl ?_
  rintro _ rfl
  exact rest

theorem consumes_ahead (wanted : Token → Prop) {f : Token → Parser α} (begins : Begins tokens follows wanted)
    (rest : ∀ second, wanted second → Consumes (f second) (token :: tokens) a follows) :
    Consumes (next >>= f) (token :: tokens) a follows := by
  intro ts same t tail ok
  obtain ⟨first, others, rfl, _, isOthers⟩ := List.map_eq_cons_iff.mp same
  obtain ⟨u, more, isNext, holds⟩ := begins_located (isOthers ▸ begins) ok tail
  have looked : next (first :: u :: more) = .ok (u.token, first :: u :: more) := rfl
  rw [List.cons_append, isNext, then_run looked, ← isNext]
  exact rest u.token holds (first :: others) same t tail ok

theorem consumes_peek {p : Parser β} {f : β → Parser α} (begins : Begins tokens follows wanted)
    (known : ∀ t ts, wanted t.token → p (t :: ts) = .ok (b, t :: ts)) (rest : Consumes (f b) tokens a follows) :
    Consumes (p >>= f) tokens a follows := fun ts same => takes_peek (same ▸ begins) known (rest ts same)

end

variable {p : Parser Bool} {sought : Token} {q r : Parser α}

theorem takes_eat (eats : Eats p sought) (here : t.token = sought) (rest : Takes q ts a follows) :
    Takes (do if ← p then q else r) (t :: ts) a follows :=
  takes_step (fun _ _ => eats.take here) rest

theorem takes_skip (eats : Eats p sought) (other : t.token ≠ sought) (rest : Takes r (t :: ts) a follows) :
    Takes (do if ← p then q else r) (t :: ts) a follows := by
  have begins : Begins ((t :: ts).map (·.token)) follows (· ≠ sought) := other
  exact takes_peek begins eats.other rest

theorem consumes_take (eats : Eats p sought) (rest : Consumes q tokens a follows) :
    Consumes (do if ← p then q else r) (sought :: tokens) a follows := by
  intro ts same
  obtain ⟨first, others, rfl, isFirst, isOthers⟩ := List.map_eq_cons_iff.mp same
  exact takes_eat eats isFirst (rest others isOthers)

theorem consumes_skip (eats : Eats p sought) (begins : Begins tokens follows (· ≠ sought)) (rest : Consumes r tokens a follows) :
    Consumes (do if ← p then q else r) tokens a follows := consumes_peek begins eats.other rest

theorem consumes_find (looks : Looks p sought) (begins : Begins tokens follows (· = sought)) (rest : Consumes q tokens a follows) :
    Consumes (do if ← p then q else r) tokens a follows := consumes_peek begins looks.here rest

theorem consumes_miss (looks : Looks p sought) (begins : Begins tokens follows (· ≠ sought)) (rest : Consumes r tokens a follows) :
    Consumes (do if ← p then q else r) tokens a follows := consumes_peek begins looks.other rest

end

theorem consumes_op (symbol : String) : Consumes (expectOp symbol) [.op symbol] () anyToken :=
  consumes_take (eats_op symbol) (consumes_pure ())

theorem consumes_word (word : String) : Consumes (expectWord word) [.name word] () anyToken :=
  consumes_take (eats_word word) (consumes_pure ())

theorem consumes_identifier {name : String} (free : isReserved name = false) :
    Consumes identifier [.name name] name anyToken := by
  refine consumes_current ?_
  dsimp only
  rw [free]
  exact consumes_advance (consumes_pure name)

-- How tightly a token ties what follows it to an expression before it; zero for a token that ends one.
def tightness : Token → Nat
  | .name "or" => 1
  | .name "and" => 2
  | .name "in" | .name "not" | .name "is" => 4
  | .op "==" | .op "!=" | .op "<" | .op "<=" | .op ">" | .op ">=" => 4
  | .op "+" | .op "-" => 5
  | .op "*" | .op "/" | .op "%" => 6
  | .op "(" | .op "." | .op "[" => 8
  | .str _ => 9
  | _ => 0

abbrev Looser (level : Nat) (t : Token) : Prop := tightness t ≤ level

def parserAt : Nat → Nat → Parser Expr
  | 0 => expression
  | 1 => conjunction
  | 2 => negation
  | 3 => comparison
  | 4 => additive
  | 5 => multiplicative
  | 6 => unary
  | _ => operand

-- Enough fuel for an expression of some length at a level: every token may open all levels again.
def fuelFor (level length : Nat) : Nat := 8 * length + (8 - level)

-- The tokens are read as the expression, up to a token that does not tie to it at this level.
def Reads (level : Nat) (tokens : List Token) (e : Expr) : Prop :=
  ∀ fuel, fuelFor level tokens.length ≤ fuel → Consumes (parserAt level fuel) tokens e (Looser level)

theorem looser_ne {level : Nat} {sought : Token} (tight : level < tightness sought) : Begins [] (Looser level) (· ≠ sought) := by
  rintro t loose rfl
  exact absurd loose (Nat.not_le_of_lt tight)

-- The levels whose operators group to the left.
def chainLevels : List Nat := [0, 1, 4, 5]

def chainOp : Nat → Parser (Option (Expr → Expr → Expr))
  | 0 => wordOp "or" .or
  | 1 => wordOp "and" .and
  | 4 => sumOp
  | _ => productOp

section

variable {level : Nat} (listed : level ∈ chainLevels)
include listed

theorem parser_chain (fuel : Nat) : parserAt level (fuel + 1) =
    (parserAt (level + 1) fuel >>= chain (chainOp level) (parserAt (level + 1) fuel) fuel) := by
  simp only [chainLevels, List.mem_cons, List.not_mem_nil, or_false] at listed
  rcases listed with rfl | rfl | rfl | rfl <;> rfl

theorem chain_op_stops : Consumes (chainOp level) [] none (Looser level) := by
  simp only [chainLevels, List.mem_cons, List.not_mem_nil, or_false] at listed
  rcases listed with rfl | rfl | rfl | rfl
  · exact consumes_skip (eats_word "or") (looser_ne (by decide)) (consumes_pure none)
  · exact consumes_skip (eats_word "and") (looser_ne (by decide)) (consumes_pure none)
  · exact consumes_skip (eats_op "+") (looser_ne (by decide)) (consumes_skip (eats_op "-") (looser_ne (by decide))
      (consumes_pure none))
  · exact consumes_skip (eats_op "*") (looser_ne (by decide)) (consumes_skip (eats_op "/") (looser_ne (by decide))
      (consumes_skip (eats_op "%") (looser_ne (by decide)) (consumes_pure none)))

end

theorem compare_op_stops : Consumes compareOp [] none (Looser 3) := by
  refine consumes_look (Looser 3) (fun _ loose => loose) fun token loose => ?_
  split
  case h_10 => exact consumes_pure none
  all_goals exact absurd loose (by decide)

theorem comparisons_stop (operand : Parser Expr) (fuel : Nat) (left : Expr) (met : Option Expr) :
    Consumes (comparisons operand (fuel + 1) left met) [] (met.getD left) (Looser 3) :=
  consumes_bind compare_op_stops (fun _ loose => loose) (consumes_pure _)

def Opens (tokens : List Token) (wanted : Token → Prop) : Prop := ∃ t rest, tokens = t :: rest ∧ wanted t

section

variable {tokens : List Token} {wanted : Token → Prop}

theorem opens_located (opens : Opens tokens wanted) {ts : List Located}
    (same : ts.map (·.token) = tokens) : ∃ t rest, ts = t :: rest ∧ wanted t.token := by
  obtain ⟨token, more, rfl, holds⟩ := opens
  obtain ⟨t, rest, rfl, rfl, rfl⟩ := List.map_eq_cons_iff.mp same
  exact ⟨t, rest, rfl, holds⟩

theorem opens_begins (opens : Opens tokens wanted) {follows other : Token → Prop} (imp : ∀ t, wanted t → other t)
    (more : List Token) : Begins (tokens ++ more) follows other := by
  obtain ⟨t, rest, rfl, holds⟩ := opens
  exact imp t holds

theorem opens_ne_nil (opens : Opens tokens wanted) : tokens ≠ [] := by
  obtain ⟨t, rest, rfl, _⟩ := opens
  simp

end

def startsExpression : Token → Prop
  | .name word => isReserved word = false ∨ word = "not"
  | .int _ | .float _ | .str _ => True
  | .op symbol => symbol = "-" ∨ symbol = "(" ∨ symbol = "[" ∨ symbol = "\x7b"
  | _ => False

theorem starts_symbol {t : Token} {symbol : String} (starts : startsExpression t)
    (listed : symbol ∈ [")", "]", "\x7d", "+", "=", ":"]) : t ≠ .op symbol := by
  rintro rfl
  simp only [List.mem_cons, List.not_mem_nil, or_false] at listed
  rcases listed with rfl | rfl | rfl | rfl | rfl | rfl <;> exact absurd starts (by simp [startsExpression])

theorem starts_word {t : Token} {word : String} (starts : startsExpression t) (reserved : isReserved word ∧ word ≠ "not") :
    t ≠ .name word := by
  rintro rfl
  rw [startsExpression, reserved.1] at starts
  exact starts.elim (by decide) reserved.2

def startsAt (level : Nat) (t : Token) : Prop := startsExpression t ∧ (2 < level → t ≠ .name "not") ∧ (6 < level → t ≠ .op "-")

theorem name_starts_at {name : String} (free : isReserved name = false) (level : Nat) : startsAt level (.name name) := by
  refine ⟨.inl free, fun _ same => ?_, fun _ => by simp⟩
  rw [Token.name.inj same] at free
  cases free

theorem starts_below {tokens : List Token} {level looser : Nat} (below : looser ≤ level) (starts : Opens tokens (startsAt level)) :
    Opens tokens (startsAt looser) := by
  obtain ⟨t, rest, split, starts, positive, unsigned⟩ := starts
  exact ⟨t, rest, split, starts, fun tight => positive (by omega), fun tight => unsigned (by omega)⟩

def Phrase (tokens : List Token) (e : Expr) : Prop := Reads 0 tokens e ∧ Opens tokens startsExpression

-- What goes on with an expression at a level: the rest of a chain, or calls, attributes and subscripts.
def loopAt (level deep fuel : Nat) (base : Expr) : Parser Expr :=
  if level = 7 then postfixes fuel base
  else if level ∈ chainLevels then chain (chainOp level) (parserAt (level + 1) deep) fuel base
  else pure base

structure Goes (level : Nat) (more : List Token) (base e : Expr) : Prop where
  begins : Begins more (Looser level) (Looser (level + 1))
  reads : ∀ deep fuel, 8 * more.length < deep → 8 * more.length < fuel →
    Consumes (loopAt level deep fuel base) more e (Looser level)

-- The tokens are read as the expression, also where the level goes on with it.
def Extends (level : Nat) (tokens : List Token) (e : Expr) : Prop :=
  ∀ more whole, Goes level more e whole → Reads level (tokens ++ more) whole

section

variable {level : Nat} {tokens more : List Token} {base e : Expr}

theorem goes_nil (level : Nat) (e : Expr) : Goes level [] e e := by
  refine ⟨fun _ loose => Nat.le_succ_of_le loose, fun deep fuel _ more => ?_⟩
  obtain _ | fuel := fuel
  · omega
  unfold loopAt
  split
  · rename_i tails
    subst tails
    rw [postfixes]
    exact consumes_skip (eats_op "(") (looser_ne (by decide)) (consumes_skip (eats_op ".") (looser_ne (by decide))
      (consumes_skip (eats_op "[") (looser_ne (by decide)) (consumes_pure e)))
  split
  · rename_i listed
    exact consumes_bind (chain_op_stops listed) (fun _ loose => loose) (consumes_pure e)
  · exact consumes_pure e

theorem goes_single (single : level ∉ 7 :: chainLevels) (goes : Goes level more base e) : more = [] ∧ base = e := by
  obtain ⟨notTail, notChain⟩ := not_or.mp (mt List.mem_cons.mpr single)
  have read := goes.reads (8 * more.length + 1) (8 * more.length + 1) (Nat.lt_succ_self _) (Nat.lt_succ_self _)
    (more.map (⟨·, 0⟩)) (by simp [Function.comp_def]) ⟨.eof, 0⟩ [] (Nat.zero_le _)
  rw [loopAt, if_neg notTail, if_neg notChain, pure_run] at read
  simpa [and_comm] using read

theorem extends_reads (grows : Extends level tokens e) : Reads level tokens e := by
  simpa using grows [] e (goes_nil level e)

theorem extends_single (single : level ∉ 7 :: chainLevels) (reads : Reads level tokens e) : Extends level tokens e := by
  intro more whole goes
  obtain ⟨rfl, rfl⟩ := goes_single single goes
  rwa [List.append_nil]

-- What is read at one level is read at the next looser one as well, unless it opens with a sign of that
-- level.
theorem extends_looser (low : level ≤ 6) (starts : Opens tokens (startsAt (level + 1))) (grows : Extends (level + 1) tokens e) :
    Extends level tokens e := by
  have reads := extends_reads grows
  by_cases listed : level ∈ chainLevels
  · intro more whole goes fuel enough
    simp only [fuelFor, List.length_append] at enough
    obtain _ | fuel := fuel
    · omega
    have loop := goes.reads fuel fuel (by omega) (by omega)
    rw [loopAt, if_neg (by omega), if_pos listed] at loop
    rw [parser_chain listed]
    exact consumes_bind (reads fuel (by unfold fuelFor; omega)) goes.begins loop
  · have single : level ∉ 7 :: chainLevels := by
      rw [List.mem_cons, not_or]
      exact ⟨by omega, listed⟩
    refine extends_single single fun fuel enough => ?_
    simp only [chainLevels, List.mem_cons] at listed
    unfold fuelFor at enough
    obtain _ | fuel := fuel
    · omega
    have inner := consumes_tight (reads fuel (by unfold fuelFor; omega)) fun _ loose => Nat.le_succ_of_le loose
    have opens {other : Token → Prop} (imp : ∀ t, startsAt (level + 1) t → other t) :
        Begins tokens (Looser level) other := by simpa using opens_begins starts imp []
    obtain rfl | rfl | rfl : level = 2 ∨ level = 3 ∨ level = 6 := by omega
    · exact consumes_skip (eats_word "not") (opens fun _ starts => starts.2.1 (by decide)) inner
    · obtain _ | fuel := fuel
      · omega
      exact consumes_last inner (fun _ loose => loose) (comparisons_stop (additive (fuel + 1)) fuel e none)
    · exact consumes_skip (eats_op "-") (opens fun _ starts => starts.2.2 (by decide))
        (consumes_skip (eats_op "+") (opens fun _ starts => starts_symbol starts.1 (by decide)) inner)

theorem extends_below {looser : Nat} (low : level ≤ 7) (below : looser ≤ level) (starts : Opens tokens (startsAt level))
    (grows : Extends level tokens e) : Extends looser tokens e := by
  induction level with
  | zero =>
    rw [Nat.le_zero.mp below]
    exact grows
  | succ level ih =>
    rcases Nat.lt_or_eq_of_le below with less | same
    · exact ih (by omega) (by omega) (starts_below (Nat.le_succ level) starts) (extends_looser (by omega) starts grows)
    · rw [same]
      exact grows

theorem goes_link {symbol : Token} {build : Expr → Expr → Expr} {right : List Token} {a b : Expr} (listed : level ∈ chainLevels)
    (known : Consumes (chainOp level) [symbol] (some build) anyToken) (tight : tightness symbol ≤ level + 1)
    (reads : Reads (level + 1) right b) (goes : Goes level more (build a b) e) :
    Goes level (symbol :: (right ++ more)) a e := by
  have low : level ≠ 7 := by
    rintro rfl
    exact absurd listed (by decide)
  refine ⟨tight, fun deep fuel enough count => ?_⟩
  rw [List.length_cons, List.length_append] at enough count
  obtain _ | fuel := fuel
  · omega
  have others := goes.reads deep fuel (by omega) (by omega)
  rw [loopAt, if_neg low, if_pos listed] at others ⊢
  exact consumes_cons known (consumes_bind (reads deep (by unfold fuelFor; omega)) goes.begins others)

theorem goes_attr {name : String} (free : isReserved name = false) (goes : Goes 7 more (.attr base name) e) :
    Goes 7 (.op "." :: .name name :: more) base e := by
  refine ⟨Nat.le_refl 8, fun deep fuel enough count => ?_⟩
  rw [List.length_cons, List.length_cons] at enough count
  obtain _ | fuel := fuel
  · omega
  exact consumes_skip (eats_op "(") (by simp [Begins]) (consumes_take (eats_op ".")
    (consumes_cons (consumes_identifier free) (goes.reads deep fuel (by omega) (by omega))))

def Arguments (tokens : List Token) (args : List Expr) (kwargs : List (String × Expr)) : Prop :=
  ∀ deep fuel, fuelFor 0 tokens.length ≤ deep → tokens.length < fuel →
    Consumes (arguments (expression deep) fuel [] []) tokens (args, kwargs) (· = .op ")")

theorem goes_call {inner : List Token} {args : List Expr} {kwargs : List (String × Expr)} (given : Arguments inner args kwargs)
    (goes : Goes 7 more (.call base args kwargs) e) : Goes 7 (.op "(" :: (inner ++ .op ")" :: more)) base e := by
  refine ⟨Nat.le_refl 8, fun deep fuel enough count => ?_⟩
  simp only [List.length_cons, List.length_append] at enough count
  obtain _ | fuel := fuel
  · omega
  exact consumes_take (eats_op "(") (consumes_bind (given fuel fuel (by unfold fuelFor; omega) (by omega)) rfl
    (consumes_cons (consumes_op ")") (goes.reads deep fuel (by omega) (by omega))))

-- What may stand after expressions with commas between them.
def endsList (t : Token) : Prop := tightness t = 0 ∧ t ≠ .op ","

theorem consumes_single {fuel : Nat} (reads : Reads 0 tokens e) (enough : fuelFor 0 tokens.length < fuel) :
    Consumes (expressionList fuel) tokens e endsList := by
  obtain _ | fuel := fuel
  · omega
  exact consumes_last (reads fuel (by omega)) (fun _ ends => Nat.le_of_eq ends.1)
    (consumes_miss (looks_op ",") (fun _ ends => ends.2) (consumes_pure e))

theorem goes_index {inner : List Token} {index : Expr} (phrase : Phrase inner index) (goes : Goes 7 more (.index base index) e) :
    Goes 7 (.op "[" :: (inner ++ .op "]" :: more)) base e := by
  refine ⟨Nat.le_refl 8, fun deep fuel enough count => ?_⟩
  simp only [List.length_cons, List.length_append] at enough count
  obtain _ | fuel := fuel
  · omega
  exact consumes_skip (eats_op "(") (by simp [Begins]) (consumes_skip (eats_op ".") (by simp [Begins]) (consumes_take (eats_op "[")
    (consumes_bind (consumes_single phrase.1 (by unfold fuelFor; omega)) ⟨rfl, by simp⟩
      (consumes_cons (consumes_op "]") (goes.reads deep fuel (by omega) (by omega))))))

end

-- The parts with a comma between them.
def separated (parts : List (List Token)) : List Token := [Token.op ","].intercalate parts

-- The parts with a comma before each of them.
def chained (parts : List (List Token)) : List Token := parts.flatMap (.op "," :: ·)

section

variable (part : List Token) (parts : List (List Token))

theorem separated_cons : separated (part :: parts) = part ++ chained parts := by
  induction parts generalizing part with
  | nil => simp [separated, chained]
  | cons next parts ih =>
    rw [separated, List.intercalate_cons_cons, ← separated, ih]
    simp [chained]

theorem chained_cons : chained (part :: parts) = .op "," :: separated (part :: parts) := by
  rw [separated_cons]
  rfl

theorem chained_member_length (member : part ∈ parts) : part.length < (chained parts).length := by
  obtain ⟨front, back, rfl⟩ := List.append_of_mem member
  simp only [chained, List.flatMap_append, List.flatMap_cons, List.length_append, List.length_cons]
  omega

theorem separated_member_length (member : part ∈ parts) : part.length ≤ (separated parts).length := by
  have short := chained_member_length part parts member
  obtain ⟨first, rest, rfl⟩ := List.exists_cons_of_ne_nil (List.ne_nil_of_mem member)
  rw [chained_cons] at short
  exact Nat.le_of_lt_succ short

theorem chained_count (filled : ∀ p ∈ parts, p ≠ []) : 2 * parts.length ≤ (chained parts).length := by
  induction parts with
  | nil => exact Nat.zero_le _
  | cons first rest ih =>
    have present := List.length_pos_iff.mpr (filled first List.mem_cons_self)
    have others := ih fun p member => filled p (List.mem_cons_of_mem _ member)
    rw [chained_cons, separated_cons]
    simp only [List.length_cons, List.length_append]
    omega

theorem separated_count (filled : ∀ p ∈ parts, p ≠ []) : parts.length ≤ (separated parts).length := by
  have count := chained_count parts filled
  cases parts with
  | nil => exact Nat.zero_le _
  | cons first rest =>
    rw [chained_cons] at count
    simp only [List.length_cons] at *
    omega

end

section

variable {γ δ σ : Type} (loop : Nat → β → Parser γ) (done : β → γ) (close : String)

-- What is done after a part in a list that goes on up to a closing bracket.
def afterPart (fuel : Nat) (b : β) : Parser γ := do
  if ← eatOp "," then loop fuel b else return done b

-- One round of the loop reads a part.
def Round (b : β) (part : List Token) (b' : β) : Prop :=
  ∀ fuel more c, Begins more (· = .op close) (fun t => t = .op "," ∨ t = .op close) →
    Consumes (afterPart loop done fuel b') more c (· = .op close) → Consumes (loop (fuel + 1) b) (part ++ more) c (· = .op close)

-- The loop reads the parts, in front of the closing bracket, at its start and after another part.
def Loops (b : β) (parts : List (List Token)) (c : γ) : Prop :=
  ∀ fuel, parts.length < fuel → Consumes (loop fuel b) (separated parts) c (· = .op close) ∧
    Consumes (afterPart loop done fuel b) (chained parts) c (· = .op close)

variable {loop done close}

theorem loops_nil (notComma : close ≠ ",") (closes : ∀ fuel b, Consumes (loop (fuel + 1) b) [] (done b) (· = .op close)) (b : β) :
    Loops loop done close b [] (done b) := by
  intro fuel more
  obtain _ | fuel := fuel
  · exact absurd more (Nat.not_lt_zero _)
  refine ⟨closes fuel b, consumes_skip (eats_op ",") ?_ (consumes_pure _)⟩
  rintro _ rfl same
  exact notComma (Token.op.inj same)

theorem loops_cons {b b' : β} {part : List Token} {parts : List (List Token)} {c : γ} (round : Round loop done close b part b')
    (others : Loops loop done close b' parts c) : Loops loop done close b (part :: parts) c := by
  have whole (fuel : Nat) (more : parts.length < fuel) :
      Consumes (loop (fuel + 1) b) (separated (part :: parts)) c (· = .op close) := by
    rw [separated_cons]
    refine round fuel (chained parts) c ?_ (others fuel more).2
    cases parts with
    | nil => exact fun _ => .inr
    | cons next parts => exact .inl rfl
  intro fuel more
  rw [List.length_cons] at more
  obtain _ | fuel := fuel
  · omega
  rw [chained_cons]
  exact ⟨whole fuel (by omega), consumes_take (eats_op ",") (whole fuel (by omega))⟩

theorem loops_append (embed : σ → β) (add : σ → δ → σ) {spell : δ → List Token} {parts : List δ} {back : List (List Token)} {c : γ}
    (rounds : ∀ p ∈ parts, ∀ s, Round loop done close (embed s) (spell p) (embed (add s p))) (s : σ)
    (others : Loops loop done close (embed (parts.foldl add s)) back c) :
    Loops loop done close (embed s) (parts.map spell ++ back) c := by
  induction parts generalizing s with
  | nil => exact others
  | cons part parts ih =>
    exact loops_cons (rounds part List.mem_cons_self s)
      (ih (fun p member => rounds p (List.mem_cons_of_mem _ member)) (add s part) others)

end

theorem loose_separator {closing : String} (closes : closing = ")" ∨ closing = "]" ∨ closing = "\x7d") (t : Token)
    (ends : t = .op "," ∨ t = .op closing) : tightness t ≤ 0 := by
  rcases ends with rfl | rfl
  · decide
  · rcases closes with rfl | rfl | rfl <;> decide

-- The loop over arguments, with those that have been read.
def argumentLoop (deep fuel : Nat) (found : List Expr × List (String × Expr)) : Parser (List Expr × List (String × Expr)) :=
  arguments (expression deep) fuel found.1 found.2

def argumentsFound (found : List Expr × List (String × Expr)) : List Expr × List (String × Expr) :=
  (found.1.reverse, found.2.reverse)

theorem argument_loop_closes {deep : Nat} (fuel : Nat) (found : List Expr × List (String × Expr)) :
    Consumes (argumentLoop deep (fuel + 1) found) [] (argumentsFound found) (· = .op ")") :=
  consumes_find (looks_op ")") begins_same (consumes_pure _)

section

variable {tokens : List Token} {e : Expr} {deep : Nat} (enough : fuelFor 0 tokens.length ≤ deep)
include enough

theorem keyword_round {name : String} (read : Reads 0 tokens e) (args : List Expr) (found : List (String × Expr)) :
    Round (argumentLoop deep) argumentsFound ")" (args, found) (.name name :: .op "=" :: tokens) (args, (name, e) :: found) := by
  intro fuel more c ends rest
  refine consumes_miss (looks_op ")") (by simp [Begins]) (consumes_current (consumes_ahead (· = .op "=") rfl ?_))
  rintro _ rfl
  exact consumes_advance (consumes_advance (consumes_bind (read deep enough) (begins_imp ends (loose_separator (.inl rfl))) rest))

end

def Positional (tokens : List Token) (e : Expr) : Prop :=
  Phrase tokens e ∧ ∀ name rest, tokens ≠ .name name :: .op "=" :: rest

theorem positional_round {tokens : List Token} {e : Expr} {deep : Nat} (enough : fuelFor 0 tokens.length ≤ deep)
    (positional : Positional tokens e) (args : List Expr) :
    Round (argumentLoop deep) argumentsFound ")" (args, []) tokens (e :: args, []) := by
  intro fuel more c ends rest
  obtain ⟨⟨reads, first, others, rfl, starts⟩, plain⟩ := positional
  refine consumes_miss (looks_op ")") (starts_symbol starts (by decide)) (consumes_current (consumes_ahead
    (fun second => ∀ name, first = .name name → second ≠ .op "=") ?_ fun second unnamed => ?_))
  · cases others with
    | nil => exact begins_imp ends fun t ended name _ same => by simp [same] at ended
    | cons second others =>
      rintro name rfl rfl
      exact plain name others rfl
  split
  · exact absurd rfl (unnamed _ rfl)
  · exact consumes_bind (reads deep enough) (begins_imp ends (loose_separator (.inl rfl))) rest

theorem arguments_given {γ δ : Type} {parts : List γ} {keywords : List δ} {tokens : γ → List Token} {value : γ → Expr}
    (name : δ → String) {more : δ → List Token} {given : δ → Expr} (read : ∀ p ∈ parts, Positional (tokens p) (value p))
    (values : ∀ k ∈ keywords, Reads 0 (more k) (given k)) :
    Arguments (separated (parts.map tokens ++ keywords.map fun k => .name (name k) :: .op "=" :: more k)) (parts.map value)
      (keywords.map fun k => (name k, given k)) := by
  intro deep fuel enough count
  have short := fun part => separated_member_length part (parts.map tokens ++ keywords.map fun k => .name (name k) :: .op "=" :: more k)
  have filled := separated_count (parts.map tokens ++ keywords.map fun k => .name (name k) :: .op "=" :: more k)
  simp only [List.forall_mem_append, List.forall_mem_map] at short filled
  have counted := filled ⟨fun p member => opens_ne_nil (read p member).1.2, fun k _ => List.cons_ne_nil _ _⟩
  have deepEnough (k : δ) (member : k ∈ keywords) : fuelFor 0 (more k).length ≤ deep := by
    have := short.2 k member
    simp only [fuelFor, List.length_cons] at *
    omega
  have named (args : List Expr) : Loops (argumentLoop deep) argumentsFound ")" (args, [])
      (keywords.map fun k => .name (name k) :: .op "=" :: more k) (args.reverse, keywords.map fun k => (name k, given k)) := by
    have ends := loops_append (Prod.mk args) (fun found k => (name k, given k) :: found)
      (fun k member found => keyword_round (deepEnough k member) (values k member) args found) [] (loops_nil (by decide) argument_loop_closes _)
    simpa [argumentsFound] using ends
  have all := loops_append (·, []) (fun args p => value p :: args) (fun p member => positional_round
    (by have := short.1 p member; unfold fuelFor at *; omega) (read p member)) [] (named _)
  simpa [argumentLoop] using (all fuel (by omega)).1

-- An operand without calls, attributes and subscripts. Texts that follow each other are one.
def Atom (tokens : List Token) (e : Expr) : Prop :=
  ∀ fuel, fuelFor 7 tokens.length ≤ fuel → Consumes (atom fuel) tokens e (Looser 8)

theorem consumes_shift {f : Nat → Token → Parser α} {token : Token} {tokens : List Token} {a : α} {follows : Token → Prop}
    (rest : ∀ here, Consumes (f here token) tokens a follows) :
    Consumes (do let here ← line; let token ← current; advance; f here token) (token :: tokens) a follows :=
  consumes_line fun here => consumes_current (consumes_advance (rest here))

theorem extends_atom {tokens : List Token} {e : Expr} (atom : Atom tokens e) : Extends 7 tokens e := by
  intro more whole goes fuel enough
  simp only [fuelFor, List.length_append] at enough
  exact consumes_bind (atom fuel (by unfold fuelFor; omega)) goes.begins (goes.reads fuel fuel (by omega) (by omega))

theorem atom_token {token : Token} {e : Expr} (reads : ∀ fuel, Consumes (atom (fuel + 2)) [token] e (Looser 8)) : Atom [token] e := by
  intro fuel enough
  obtain ⟨less, rfl⟩ := Nat.exists_eq_add_of_le' (show 9 ≤ fuel from enough)
  exact reads (less + 7)

def literal? : Token → Option Value
  | .int n => some (.int n)
  | .float x => some (.float x)
  | .name "True" => some (.bool true)
  | .name "False" => some (.bool false)
  | .name "None" => some .none
  | _ => none

theorem atom_literal {token : Token} {v : Value} (literal : literal? token = some v) : Atom [token] (.lit v) := by
  refine atom_token fun fuel => ?_
  unfold literal? at literal
  split at literal <;> cases literal <;> exact consumes_shift fun _ => consumes_pure _

def constants : List String := ["True", "False", "None"]

theorem atom_name {name : String} (free : isReserved name = false) (variable_ : name ∉ constants) :
    Atom [.name name] (.name name) := by
  refine atom_token fun fuel => ?_
  simp only [constants, List.mem_cons, List.not_mem_nil, or_false, not_or] at variable_
  obtain ⟨notTrue, notFalse, notNone⟩ := variable_
  refine consumes_shift fun _ => ?_
  generalize isName : Token.name name = token
  split
  case h_4 => exact absurd (Token.name.inj isName) notTrue
  case h_5 => exact absurd (Token.name.inj isName) notFalse
  case h_6 => exact absurd (Token.name.inj isName) notNone
  case h_7 =>
    cases isName
    rw [free]
    exact consumes_pure _
  case h_11 =>
    rename_i named _ _ _
    exact absurd isName.symm (named name)
  all_goals cases isName

theorem atom_str (text : String) : Atom [.str text] (.lit (.str text)) := by
  refine atom_token fun fuel => consumes_shift fun _ => consumes_last ?_ (fun _ => id) (consumes_pure _)
  refine consumes_look (Looser 8) (fun _ => id) fun token loose => ?_
  split
  · exact absurd loose (by change ¬9 ≤ 8; decide)
  · exact consumes_pure text

theorem atom_paren {tokens : List Token} {e : Expr} (reads : Reads 0 tokens e) (opens : Opens tokens (· ≠ .op ")")) :
    Atom (.op "(" :: (tokens ++ [.op ")"])) e := by
  intro fuel enough
  simp only [fuelFor, List.length_cons, List.length_append] at enough
  obtain _ | fuel := fuel
  · omega
  refine consumes_shift fun _ => consumes_skip (eats_op ")") (opens_begins opens (fun _ => id) _) (consumes_bind
    (reads fuel (by unfold fuelFor; omega)) (Nat.le_refl 0) (consumes_take (eats_op ")") (consumes_pure e)))

theorem atom_bracketed {γ : Type} {opening closing : String} (item : Nat → Parser α) (build : List α → Expr)
    (opened : ∀ fuel tokens e, Consumes (do
        let items ← bracketed closing (item fuel) fuel []
        expectOp closing
        return build items) tokens e (Looser 8) → Consumes (atom (fuel + 1)) (.op opening :: tokens) e (Looser 8))
    (notComma : closing ≠ ",") {parts : List γ} {tokens : γ → List Token}
    {value : γ → α} (read : ∀ p ∈ parts, Opens (tokens p) (· ≠ .op closing) ∧ ∀ fuel, fuelFor 0 (tokens p).length ≤ fuel →
      Consumes (item fuel) (tokens p) (value p) fun t => t = .op "," ∨ t = .op closing) :
    Atom (.op opening :: (separated (parts.map tokens) ++ [.op closing])) (build (parts.map value)) := by
  intro fuel enough
  simp only [fuelFor, List.length_cons, List.length_append] at enough
  obtain _ | fuel := fuel
  · omega
  have counted := separated_count (parts.map tokens) (List.forall_mem_map.mpr fun p member => opens_ne_nil (read p member).1)
  rw [List.length_map] at counted
  have rounds (p : γ) (member : p ∈ parts) (found : List α) :
      Round (bracketed closing (item fuel)) List.reverse closing found (tokens p) (value p :: found) := by
    have short := separated_member_length (tokens p) (parts.map tokens) (List.mem_map_of_mem member)
    intro least more c ends rest
    exact consumes_miss (looks_op closing) (opens_begins (read p member).1 (fun _ => id) more)
      (consumes_bind ((read p member).2 fuel (by unfold fuelFor; omega)) ends rest)
  have items := loops_append id (fun found p => value p :: found) rounds [] (loops_nil notComma (fun fuel found =>
    consumes_find (looks_op closing) begins_same (consumes_pure _)) _)
  have read : Consumes (bracketed closing (item fuel) fuel []) (separated (parts.map tokens)) (parts.map value) (· = .op closing) := by
    simpa using (items fuel (by simpa using by omega)).1
  exact opened fuel _ _ (consumes_bind read rfl (consumes_cons (consumes_op closing) (consumes_pure _)))

theorem phrase_opens_item {tokens : List Token} {e : Expr} {close : String} (phrase : Phrase tokens e)
    (closes : close = "]" ∨ close = "\x7d") : Opens tokens (· ≠ .op close) := by
  obtain ⟨t, rest, split, starts⟩ := phrase.2
  refine ⟨t, rest, split, starts_symbol starts ?_⟩
  rcases closes with rfl | rfl <;> decide

theorem atom_list {γ : Type} {parts : List γ} {tokens : γ → List Token} {value : γ → Expr}
    (read : ∀ p ∈ parts, Phrase (tokens p) (value p)) :
    Atom (.op "[" :: (separated (parts.map tokens) ++ [.op "]"])) (.list (parts.map value)) :=
  atom_bracketed expression .list (fun _ _ _ rest => by exact consumes_shift fun _ => rest) (by decide) fun p member =>
    ⟨phrase_opens_item (read p member) (.inl rfl), fun fuel enough =>
      consumes_tight ((read p member).1 fuel enough) (loose_separator (.inr (.inl rfl)))⟩

theorem atom_dict {γ : Type} {parts : List γ} {keys values : γ → List Token} {key value : γ → Expr}
    (read : ∀ p ∈ parts, Phrase (keys p) (key p) ∧ Phrase (values p) (value p)) :
    Atom (.op "\x7b" :: (separated (parts.map fun p => keys p ++ .op ":" :: values p) ++ [.op "\x7d"]))
      (.dict (parts.map fun p => (key p, value p))) := by
  refine atom_bracketed entry .dict (fun _ _ _ rest => by exact consumes_shift fun _ => rest) (by decide) fun p member => ⟨?_, ?_⟩
  · obtain ⟨head, tail, split, other⟩ := phrase_opens_item (read p member).1 (.inr rfl)
    exact ⟨head, tail ++ .op ":" :: values p, by simp [split], other⟩
  · intro fuel enough
    simp only [fuelFor, List.length_append, List.length_cons] at enough
    obtain _ | fuel := fuel
    · omega
    exact consumes_bind ((read p member).1.1 fuel (by unfold fuelFor; omega)) (Nat.le_refl 0) (consumes_cons (consumes_op ":")
      (consumes_last ((read p member).2.1 fuel (by unfold fuelFor; omega)) (loose_separator (.inr (.inr rfl))) (consumes_pure _)))

section

variable {tokens : List Token} {e : Expr}

theorem reads_signed {level : Nat} {sign : Token} {build : Expr → Expr} (opened : ∀ fuel, Consumes
      (parserAt level fuel) tokens e (Looser level) → Consumes (parserAt level (fuel + 1)) (sign :: tokens) (build e) (Looser level))
    (reads : Reads level tokens e) : Reads level (sign :: tokens) (build e) := by
  intro fuel enough
  simp only [fuelFor, List.length_cons] at enough
  obtain _ | fuel := fuel
  · omega
  exact opened fuel (reads fuel (by unfold fuelFor; omega))

theorem reads_not (reads : Reads 2 tokens e) : Reads 2 (.name "not" :: tokens) (.not e) :=
  reads_signed (fun _ inner => consumes_take (eats_word "not") (consumes_last inner (fun _ => id) (consumes_pure _))) reads

theorem reads_minus (reads : Reads 6 tokens e) : Reads 6 (.op "-" :: tokens) (negate e) :=
  reads_signed (fun _ inner => consumes_take (eats_op "-") (consumes_last inner (fun _ => id) (consumes_pure _))) reads

def compareTokens : CmpOp → List Token
  | .isIn => [.name "in"]
  | .notIn => [.name "not", .name "in"]
  | op => [.op op.symbol]

theorem consumes_compare (op : CmpOp) : Consumes compareOp (compareTokens op) (some op) anyToken := by
  cases op with
  | notIn =>
    refine consumes_current (consumes_ahead (· = .name "in") rfl ?_)
    rintro _ rfl
    exact consumes_advance (consumes_advance (consumes_pure _))
  | _ => exact consumes_current (consumes_advance (consumes_pure _))

theorem reads_compare {left right : List Token} {a b : Expr} (op : CmpOp) (first : Reads 4 left a) (second : Reads 4 right b) :
    Reads 3 (left ++ (compareTokens op ++ right)) (.cmp op a b) := by
  intro fuel enough
  simp only [fuelFor, List.length_append] at enough
  have opens : Opens (compareTokens op) (Looser 4) := by cases op <;> exact ⟨_, _, rfl, by decide⟩
  obtain ⟨sign, signs, isSign, _⟩ := id opens
  rw [isSign, List.length_cons] at enough
  obtain _ | _ | _ | fuel := fuel
  · omega
  · omega
  · omega
  exact consumes_bind (first (fuel + 2) (by unfold fuelFor; omega)) (opens_begins opens (fun _ => id) right)
    (consumes_bind (consumes_compare op) begins_any (consumes_last (second (fuel + 2) (by unfold fuelFor; omega))
      (fun _ loose => Nat.le_succ_of_le loose) (comparisons_stop (additive (fuel + 2)) fuel b (some (.cmp op a b)))))

end

end Flowstep.Script.Parser
