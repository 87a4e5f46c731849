import Flowstep.Proofs.Descent

/-!
Reading a flow loses no step and moves none: the steps of its statements, taken in the order of the
text, are those of its tokens.
-/
namespace Flowstep.Flow

-- Without an issue, the steps of what is read and those of the tokens that are left make up the text.
def Parsed.Covers {α : Type} {limit : Nat} (p : Parsed α limit) (steps : α → List Step) (text : List Step) :
    Prop :=
  p.issues = [] → steps p.value ++ p.rest.map (·.step) = text

theorem block_steps_append (front back : List Statement) :
    blockSteps (front ++ back) = blockSteps front ++ blockSteps back := by
  induction front with
  | nil => simp [blockSteps]
  | cons s rest ih => simp [blockSteps, ih]

theorem closing_covers (closer : Keyword) (tokens : List Token) (stops : Stops [closer] tokens) :
    (closing closer tokens).Covers Option.toList (tokens.map (·.step)) := by
  intro _
  cases tokens with
  | nil => rfl
  | cons t rest =>
    simp [closing, stops_at stops]

section

-- Every block of fewer than `limit` tokens is covered. What is read between two blocks adds its own.
variable {limit : Nat}
  (blocks : ∀ (closers : List Keyword) (depth : Nat) (tokens : List Token), tokens.length < limit →
    (block closers depth tokens).Covers blockSteps (tokens.map (·.step)))

include blocks

theorem clause_covers (key : Keyword) (closers : List Keyword) (depth : Nat) (tokens : List Token)
    (short : tokens.length < limit) :
    (clause key closers depth tokens).Covers clauseSteps (tokens.map (·.step)) := by
  cases tokens with
  | nil =>
    intro _
    rfl
  | cons t rest =>
    rw [clause]
    split
    · intro clean
      have body := blocks closers depth rest (Nat.lt_of_succ_lt short) clean
      simp [clauseSteps, body]
    · intro _
      rfl

theorem alternatives_cover (depth : Nat) (tokens : List Token) (short : tokens.length < limit) :
    (alternatives depth tokens).Covers clausesSteps (tokens.map (·.step)) := by
  match tokens with
  | [] =>
    intro _
    rfl
  | t :: rest =>
    have shorter : rest.length < limit := Nat.lt_of_succ_lt short
    have fits := (block ifClosers depth rest).fits
    rw [alternatives]
    split
    · intro clean
      obtain ⟨cleanBody, cleanOthers⟩ := List.append_eq_nil_iff.mp clean
      have body := blocks ifClosers depth rest shorter cleanBody
      have others := alternatives_cover depth _ (Nat.lt_of_le_of_lt fits shorter) cleanOthers
      simp [clausesSteps, ← body, ← others]
    · intro _
      rfl
termination_by tokens.length

theorem handlers_cover (first : Option Clause) (depth : Nat) (tokens : List Token) (short : tokens.length < limit) :
    (handlers first depth tokens).Covers clauseSteps (clauseSteps first ++ tokens.map (·.step)) := by
  match tokens with
  | [] =>
    intro _
    rfl
  | t :: rest =>
    have shorter : rest.length < limit := Nat.lt_of_succ_lt short
    have fits := (block tryClosers depth rest).fits
    rw [handlers]
    split
    · intro clean
      obtain ⟨cleanBody, cleanOthers⟩ := List.append_eq_nil_iff.mp clean
      obtain ⟨cleanBlock, single⟩ := List.append_eq_nil_iff.mp cleanBody
      cases first with
      | some clause => simp at single
      | none =>
        have body := blocks tryClosers depth rest shorter cleanBlock
        have others := handlers_cover (some ⟨t.step, (block tryClosers depth rest).value⟩) depth _
          (Nat.lt_of_le_of_lt fits shorter) cleanOthers
        simpa [clauseSteps, ← body] using others
    · intro _
      rfl
termination_by tokens.length
decreasing_by exact Nat.lt_succ_of_le fits

theorem branch_covers (gate : Gate) (depth : Nat) (step : Step) (tokens : List Token) (short : tokens.length < limit) :
    (branch gate depth step tokens).Covers Statement.steps (step :: tokens.map (·.step)) := by
  intro clean
  rw [branch] at clean ⊢
  simp only [Parsed.bind_issues, Parsed.map_issues, List.append_eq_nil_iff] at clean
  obtain ⟨cleanBody, cleanOthers, cleanLast, cleanClosing⟩ := clean
  have shortOthers := Nat.lt_of_le_of_lt (block ifClosers depth tokens).fits short
  have shortLast := Nat.lt_of_le_of_lt (alternatives depth _).fits shortOthers
  have stops := clause_stops .else elseClosers depth _ (alternatives_stop depth (block_stops ifClosers depth tokens))
  have body := blocks ifClosers depth tokens short cleanBody
  have others := alternatives_cover blocks depth _ shortOthers cleanOthers
  have last := clause_covers blocks .else elseClosers depth _ shortLast cleanLast
  have closing := closing_covers .ifEnd _ stops cleanClosing
  simp only [Parsed.bind_value, Parsed.map_value, Statement.steps]
  rw [← body, ← others, ← last, ← closing]
  simp

theorem loop_covers {kind : LoopKind} (depth : Nat) (step : Step) {tokens : List Token}
    (short : tokens.length < limit) :
    (loop kind depth step tokens).Covers Statement.steps (step :: tokens.map (·.step)) := by
  intro clean
  rw [loop] at clean ⊢
  obtain ⟨cleanBody, cleanClosing⟩ := List.append_eq_nil_iff.mp clean
  have body := blocks [kind.closer] (depth + 1) tokens short cleanBody
  have closing := closing_covers kind.closer _ (block_stops [kind.closer] (depth + 1) tokens) cleanClosing
  simp only [Parsed.bind_value, Parsed.map_value, Statement.steps]
  rw [← body, ← closing]
  simp

theorem attempt_covers (depth : Nat) (step : Step) (tokens : List Token) (short : tokens.length < limit) :
    (attempt depth step tokens).Covers Statement.steps (step :: tokens.map (·.step)) := by
  intro clean
  rw [attempt] at clean ⊢
  simp only [Parsed.bind_issues, Parsed.map_issues, List.append_eq_nil_iff] at clean
  obtain ⟨cleanBody, cleanHandler, cleanLast, cleanClosing⟩ := clean
  have shortHandler := Nat.lt_of_le_of_lt (block tryClosers depth tokens).fits short
  have shortLast := Nat.lt_of_le_of_lt (handlers none depth _).fits shortHandler
  have stops := clause_stops .finally finallyClosers depth _
    (handlers_stop none depth _ (block_stops tryClosers depth tokens))
  have body := blocks tryClosers depth tokens short cleanBody
  have handler := handlers_cover blocks none depth _ shortHandler cleanHandler
  have last := clause_covers blocks .finally finallyClosers depth _ shortLast cleanLast
  have closing := closing_covers .tryEnd _ stops cleanClosing
  simp only [clauseSteps, List.nil_append] at handler
  simp only [Parsed.bind_value, Parsed.map_value, Statement.steps]
  rw [← body, ← handler, ← last, ← closing]
  simp

theorem statement_covers (depth : Nat) (t : Token) (rest : List Token) (short : rest.length < limit) :
    (statement depth t rest).Covers (fun s => blockSteps s.toList) ((t :: rest).map (·.step)) := by
  have one (s : Statement) : blockSteps (some s).toList = s.steps := by simp [blockSteps]
  intro clean
  rw [statement] at clean ⊢
  split at clean
  case h_2 | h_4 =>
    exact (congrArg (· ++ _) (one _)).trans (branch_covers blocks _ depth t.step rest short clean)
  case h_9 => exact (congrArg (· ++ _) (one _)).trans (attempt_covers blocks depth t.step rest short clean)
  case h_3 | h_5 | h_6 | h_7 | h_8 =>
    exact (congrArg (· ++ _) (one _)).trans (loop_covers blocks depth t.step short clean)
  case h_1 | h_12 => rfl
  case h_10 | h_11 =>
    by_cases outside : depth = 0
    · simp [outside] at clean
    · rw [if_neg outside]
      rfl
  case h_13 => simp at clean

end

theorem block_covers {limit : Nat} (closers : List Keyword) (depth : Nat) (tokens : List Token)
    (short : tokens.length < limit) : (block closers depth tokens).Covers blockSteps (tokens.map (·.step)) := by
  induction limit generalizing closers depth tokens with
  | zero => exact absurd short (Nat.not_lt_zero _)
  | succ limit ih =>
    cases tokens with
    | nil =>
      intro _
      rfl
    | cons t rest =>
      have shorter : rest.length < limit := Nat.lt_of_succ_lt_succ short
      rw [block]
      split
      · intro _
        rfl
      · intro clean
        obtain ⟨cleanFirst, cleanOthers⟩ := List.append_eq_nil_iff.mp clean
        have first := statement_covers ih depth t rest shorter cleanFirst
        have others := ih closers depth _ (Nat.lt_of_le_of_lt (statement depth t rest).fits shorter) cleanOthers
        simp only [Parsed.after_value, Parsed.after_rest, Parsed.bind_value, Parsed.bind_rest, Parsed.map_value,
          Parsed.map_rest, block_steps_append]
        rw [List.append_assoc, others]
        exact first

theorem nest_steps {tokens : List Token} {statements : List Statement}
    (nested : nest tokens = .ok statements) : blockSteps statements = tokens.map (·.step) := by
  unfold nest at nested
  dsimp only at nested
  split at nested
  · rename_i clean
    cases nested
    have covered := block_covers [] 0 tokens (Nat.lt_succ_self _) (List.isEmpty_iff.mp clean)
    have done : (block [] 0 tokens).rest = [] := stops_nothing (block_stops [] 0 tokens)
    simpa [done] using covered
  · cases nested

theorem tokens_steps {tables : Tables} {steps : List Step} (found : List Token)
    (read : tokens tables steps = .ok found) :
    found.map (·.step) = steps.filter fun s => !isGroupMark s.key := by
  induction steps generalizing found with
  | nil =>
    cases read
    rfl
  | cons s rest ih =>
    unfold tokens at read
    by_cases empty : s.key.isEmpty
    · simp [empty] at read
    · by_cases mark : isGroupMark s.key
      · simp only [empty, mark] at read
        simpa [mark] using ih found read
      · cases others : tokens tables rest with
        | error e => simp [empty, others, bind, Except.bind] at read
        | ok more =>
          simp [empty, mark, others, bind, Except.bind, pure, Except.pure] at read
          subst read
          simp [mark, ih more others]

-- The end of the flow is no token, so there are as many tokens as there are steps in the tree.
theorem nested_steps_in_order {tokens : List Token} {statements : List Statement}
    (nested : nest tokens = .ok statements) :
    blockSteps statements = tokens.map (·.step) ∧ (blockSteps statements).length = tokens.length := by
  have same := nest_steps nested
  exact ⟨same, by rw [same, List.length_map]⟩

def cutShort : List Token :=
  [.try, .forList, .if, .else, .break].mapIdx fun i key => ⟨.keyword key, { key := key.word, line := i + 1 }⟩

theorem cut_short_steps : ∃ statements, nest cutShort = .ok statements ∧ statements.length = 1 ∧
    blockSteps statements = cutShort.map (·.step) ∧ (blockSteps statements).length = 5 :=
  ⟨_, rfl, rfl, nested_steps_in_order rfl⟩

end Flowstep.Flow
