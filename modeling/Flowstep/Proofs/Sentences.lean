import Flowstep.Proofs.Layout

/-!
Statements that hold no others: the tokens of a line are read as the statement, up to the end of the line.
-/
namespace Flowstep.Script.Parser

theorem ends_statement_other (t : Located) (ts : List Located) (starts : startsExpression t.token) :
    endsStatement (t :: ts) = .ok (false, t :: ts) := by
  obtain ⟨token, n⟩ := t
  cases token <;> first | rfl | exact absurd starts (by simp [startsExpression])

section

theorem after_item (parts : List (List Token)) : Begins (chained parts) endsList (Looser 0) := by
  cases parts with
  | nil => exact fun _ ends => Nat.le_of_eq ends.1
  | cons part parts => exact Nat.le_refl 0

variable {γ : Type} {parts : List γ} {tokens : γ → List Token} {value : γ → Expr}
  (read : ∀ p ∈ parts, Phrase (tokens p) (value p))
include read

theorem comma_items (deep fuel : Nat) (before : List Expr) (enough : fuelFor 0 (chained (parts.map tokens)).length ≤ deep)
    (more : parts.length < fuel) : Consumes (commaItems (expression deep) fuel before) (chained (parts.map tokens))
      (before.reverse ++ parts.map value) endsList := by
  induction parts generalizing before fuel with
  | nil =>
    obtain _ | fuel := fuel
    · omega
    simp only [List.map_nil, List.append_nil]
    exact consumes_skip (eats_op ",") (fun _ ends => ends.2) (consumes_pure _)
  | cons part parts ih =>
    obtain _ | fuel := fuel
    · omega
    rw [List.length_cons] at more
    rw [List.map_cons, chained_cons, separated_cons] at enough ⊢
    simp only [fuelFor, List.length_cons, List.length_append] at enough
    obtain ⟨reads, opens⟩ := read part List.mem_cons_self
    have others (p) (member : p ∈ parts) := read p (List.mem_cons_of_mem _ member)
    have recursion := ih others fuel (value part :: before) (by unfold fuelFor; omega) (by omega)
    rw [List.reverse_cons, List.append_assoc] at recursion
    exact consumes_take (eats_op ",") (consumes_peek (opens_begins opens (fun _ => id) _) ends_statement_other
      (consumes_peek (opens_begins opens (fun _ starts => starts_symbol starts (by decide)) _) (looks_op "=").other
        (consumes_peek (opens_begins opens (fun _ starts => starts_symbol starts (by decide)) _) (looks_op ":").other
          (consumes_bind (reads deep (by unfold fuelFor; omega)) (after_item _) recursion))))

def listed (first : Expr) : List Expr → Expr
  | [] => first
  | more => .list (first :: more)

theorem consumes_list {first : List Token} {e : Expr} (start : Reads 0 first e) {fuel : Nat}
    (enough : fuelFor 0 (separated (first :: parts.map tokens)).length < fuel) :
    Consumes (expressionList fuel) (separated (first :: parts.map tokens)) (listed e (parts.map value)) endsList := by
  rw [separated_cons] at enough ⊢
  cases parts with
  | nil =>
    rw [List.map_nil, chained, List.flatMap_nil, List.append_nil] at *
    exact consumes_single start enough
  | cons part parts =>
    obtain _ | fuel := fuel
    · omega
    have counted := chained_count _ (List.forall_mem_map.mpr fun p member => opens_ne_nil (read p member).2)
    rw [List.length_map] at counted
    simp only [fuelFor, List.length_append] at enough
    exact consumes_bind (start fuel (by unfold fuelFor; omega)) (after_item _) (consumes_find (looks_op ",") rfl
      (consumes_last (comma_items read fuel fuel [e] (by unfold fuelFor; omega) (by omega)) (fun _ => id) (consumes_pure _)))

end

def Sentence (tokens : List Token) (kind : StmtKind) : Prop :=
  ∀ fuel, fuelFor 0 tokens.length < fuel → Consumes (simple fuel) tokens kind (· = .newline)

def wordStatements : List (String × StmtKind) :=
  [("pass", .pass), ("break", .break), ("continue", .continue), ("return", .return none), ("raise", .raise none)]

theorem sentence_word {word : String} {kind : StmtKind} (known : (word, kind) ∈ wordStatements) :
    Sentence [.name word] kind := by
  intro fuel _ ts same t rest ends
  obtain ⟨⟨token, n⟩, _, rfl, isWord, same⟩ := List.map_eq_cons_iff.mp same
  rw [List.map_eq_nil_iff.mp same]
  obtain ⟨last, m⟩ := t
  subst isWord ends
  unfold wordStatements at known
  simp only [List.mem_cons, List.not_mem_nil, or_false] at known
  rcases known with ⟨rfl, rfl⟩ | ⟨rfl, rfl⟩ | ⟨rfl, rfl⟩ | ⟨rfl, rfl⟩ | ⟨rfl, rfl⟩ <;> rfl

theorem simple_is_assignment {fuel : Nat} {tokens : List Token} {kind : StmtKind} {follows : Token → Prop}
    (opens : Opens tokens startsExpression) (read : Consumes (assignment fuel) tokens kind follows) :
    Consumes (simple fuel) tokens kind follows := by
  have other (word : String) (reserved : isReserved word ∧ word ≠ "not") : Begins tokens follows (· ≠ .name word) := by
    simpa using opens_begins opens (fun _ starts => starts_word starts reserved) []
  exact consumes_skip (eats_word "pass") (other _ (by decide)) (consumes_skip (eats_word "break") (other _ (by decide))
    (consumes_skip (eats_word "continue") (other _ (by decide)) (consumes_skip (eats_word "return") (other _ (by decide))
      (consumes_skip (eats_word "raise") (other _ (by decide)) (consumes_peek (other _ (by decide)) (eats_word "import").other
        (consumes_skip (eats_word "from") (other _ (by decide)) read))))))

theorem newline_ends_list (t : Token) (ends : t = .newline) : endsList t := by
  subst ends
  exact ⟨rfl, by simp⟩

theorem augmented_op_none : Consumes augmentedOp [] none (· = .newline) := by
  have other (symbol : String) : Begins [] (· = Token.newline) (· ≠ .op symbol) := by
    rintro _ rfl
    simp
  exact consumes_skip (eats_op "+=") (other _) (consumes_skip (eats_op "-=") (other _) (consumes_skip (eats_op "*=") (other _)
    (consumes_skip (eats_op "/=") (other _) (consumes_skip (eats_op "%=") (other _) (consumes_pure none)))))

variable {e : Expr}

theorem sentence_expr {tokens : List Token} (phrase : Phrase tokens e) : Sentence tokens (.expr e) := by
  intro fuel enough
  refine simple_is_assignment phrase.2 (consumes_last (consumes_single phrase.1 enough) newline_ends_list
    (consumes_miss (looks_op "=") ?_ (consumes_last augmented_op_none (fun _ => id) (consumes_pure _))))
  rintro _ rfl
  simp

def targetExpr : Target → Expr
  | .name name => .name name
  | .index object index => .index object index

theorem target_of_expr (target : Target) : target? (targetExpr target) = some target := by
  cases target <;> rfl

theorem targets_run (line : Nat) (first : Target) (others : List Target) (ts : List Located) :
    targets line (listed (targetExpr first) (others.map targetExpr)) ts = .ok (first :: others, ts) := by
  cases others with
  | nil => cases first <;> rfl
  | cons second others =>
    have all : ((first :: second :: others).map targetExpr).mapM target? = some (first :: second :: others) := by
      generalize first :: second :: others = all
      induction all with
      | nil => rfl
      | cons target rest ih =>
        rw [List.map_cons, List.mapM_cons, target_of_expr, ih]
        rfl
    rw [List.map_cons, listed, targets, ← List.map_cons, ← List.map_cons, all]
    · rfl
    · simp

theorem consumes_targets {α : Type} {f : List Target → Parser α} {line : Nat} {found : List Target} {tokens : List Token} {a : α}
    {follows : Token → Prop} (known : ∀ ts, targets line e ts = .ok (found, ts)) (rest : Consumes (f found) tokens a follows) :
    Consumes (targets line e >>= f) tokens a follows := by
  intro ts same t tail ok
  rw [then_run (known _)]
  exact rest ts same t tail ok

theorem sentence_assign {first : List Token × Target} {others : List (List Token × Target)} {value : List Token}
    (start : Phrase first.1 (targetExpr first.2)) (read : ∀ p ∈ others, Phrase p.1 (targetExpr p.2))
    (valued : Reads 0 value e) :
    Sentence (separated ((first :: others).map Prod.fst) ++ .op "=" :: value)
      (.assign ((first :: others).map Prod.snd) e) := by
  intro fuel enough
  simp only [fuelFor, List.map_cons, List.length_append, List.length_cons] at enough
  have bound : Consumes (expressionList fuel) (separated ((first :: others).map Prod.fst))
      (listed (targetExpr first.2) ((others.map Prod.snd).map targetExpr)) endsList := by
    rw [List.map_map]
    exact consumes_list read start.1 (by unfold fuelFor; omega)
  refine simple_is_assignment ?_ (consumes_bind bound ⟨rfl, by simp⟩ (consumes_find (looks_op "=") rfl (consumes_line fun here =>
    consumes_targets (targets_run here first.2 _) (consumes_advance (consumes_last (consumes_single valued (by unfold fuelFor; omega)) newline_ends_list
      (consumes_miss (looks_op "=") ?_ (consumes_pure _)))))))
  · obtain ⟨t, rest, split, starts⟩ := start.2
    exact ⟨t, _, by rw [List.map_cons, separated_cons, split]; rfl, starts⟩
  · rintro _ rfl
    simp

theorem sentence_decrement {name : String} {value : List Token} (free : isReserved name = false)
    (variable_ : name ∉ constants) (valued : Reads 0 value e) :
    Sentence (.name name :: .op "-=" :: value) (.augAssign (.name name) .sub e) := by
  intro fuel enough
  simp only [fuelFor, List.length_cons] at enough
  have named : Reads 0 [.name name] (.name name) :=
    extends_reads (extends_below (by decide) (Nat.zero_le 7) ⟨_, [], rfl, name_starts_at free 7⟩
      (extends_atom (atom_name free variable_)))
  have subtracts : Consumes augmentedOp [.op "-="] (some .sub) anyToken :=
    consumes_skip (eats_op "+=") (by simp [Begins]) (consumes_take (eats_op "-=") (consumes_pure _))
  refine simple_is_assignment ⟨_, _, rfl, .inl free⟩ ?_
  change Consumes (assignment fuel) ([.name name] ++ .op "-=" :: value) _ _
  exact consumes_bind (consumes_single named (by change 16 < fuel; omega)) ⟨rfl, by simp⟩ (consumes_miss (looks_op "=")
    (by simp [Begins]) (consumes_cons subtracts (consumes_line fun _ => consumes_targets (fun _ => rfl)
      (consumes_last (consumes_single valued (by unfold fuelFor; omega)) newline_ends_list (consumes_pure _)))))

end Flowstep.Script.Parser
