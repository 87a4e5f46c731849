import Flowstep.Proofs.Descent

/-!
The grammar of blocks, as an automaton that reads a flow once with a stack of the blocks that are open.
-/
namespace Flowstep.Flow

inductive OpenBlock where
  | conditional
  | otherwise
  | whileLoop
  | forLoop
  | attempt
  | catching
  | finishing
deriving DecidableEq, Repr

def OpenBlock.isLoop : OpenBlock → Bool
  | .whileLoop | .forLoop => true
  | _ => false

inductive Reaction where
  | closes
  | becomes (next : OpenBlock)
  | repeats
  | refuses
deriving DecidableEq, Repr

def OpenBlock.meets : OpenBlock → Keyword → Reaction
  | .conditional, .elseIf => .becomes .conditional
  | .conditional, .else => .becomes .otherwise
  | .conditional, .ifEnd | .otherwise, .ifEnd => .closes
  | .whileLoop, .whileEnd | .forLoop, .forEnd => .closes
  | .attempt, .catch => .becomes .catching
  | .catching, .catch => .repeats
  | .attempt, .finally | .catching, .finally => .becomes .finishing
  | .attempt, .tryEnd | .catching, .tryEnd | .finishing, .tryEnd => .closes
  | _, _ => .refuses

def reaction : List OpenBlock → Keyword → Reaction
  | [], _ => .refuses
  | innermost :: _, key => innermost.meets key

def start (stack : List OpenBlock) (line : Nat) : Keyword → List OpenBlock × Option Issue
  | .if => (.conditional :: stack, none)
  | .while => (.whileLoop :: stack, none)
  | .forStep | .forList | .forDict => (.forLoop :: stack, none)
  | .try => (.attempt :: stack, none)
  | .return => (stack, none)
  | .break => (stack, if stack.any OpenBlock.isLoop then none else some (.outsideLoop line .break))
  | .continue => (stack, if stack.any OpenBlock.isLoop then none else some (.outsideLoop line .continue))
  | key => (stack, some (.unexpected line key))

def advance (stack : List OpenBlock) (t : Token) : List OpenBlock × Option Issue :=
  match t.kind with
  | .atomic => (stack, none)
  | .condition => (.conditional :: stack, none)
  | .iterator => (.forLoop :: stack, none)
  | .keyword key =>
    match reaction stack key with
    | .closes => (stack.tail, none)
    | .becomes next => (next :: stack.tail, none)
    | .repeats => (stack, some (.extraCatch t.step.line))
    | .refuses => start stack t.step.line key

-- The end of the flow closes every block, so that what is open then is no violation.
def violations : List OpenBlock → List Token → List Issue
  | _, [] => []
  | stack, t :: rest => (advance stack t).2.toList ++ violations (advance stack t).1 rest

variable {stack : List OpenBlock} {t : Token} {next : List OpenBlock}

theorem violations_quiet (rest : List Token) (moves : advance stack t = (next, none)) :
    violations stack (t :: rest) = violations next rest := by
  simp [violations, moves]

variable {issue : Issue}

theorem violations_found (rest : List Token) (moves : advance stack t = (next, some issue)) :
    violations stack (t :: rest) = issue :: violations next rest := by
  simp [violations, moves]

def OpenBlock.closers : OpenBlock → List Keyword
  | .conditional => ifClosers
  | .otherwise => elseClosers
  | .whileLoop => [.whileEnd]
  | .forLoop => [.forEnd]
  | .attempt | .catching => tryClosers
  | .finishing => finallyClosers

def closersOf : List OpenBlock → List Keyword
  | [] => []
  | innermost :: _ => innermost.closers

def loops : List OpenBlock → Nat
  | [] => 0
  | innermost :: outer => bif innermost.isLoop then loops outer + 1 else loops outer

variable {innermost : OpenBlock}

theorem inside_loop (stack : List OpenBlock) : stack.any OpenBlock.isLoop = !decide (loops stack = 0) := by
  induction stack with
  | nil => rfl
  | cons innermost outer ih =>
    cases loop : innermost.isLoop with
    | false => simp [loops, loop, ih]
    | true => simp [loops, loop]

variable {key : Keyword}

theorem meets_refuses (other : innermost.closers.contains key = false) :
    innermost.meets key = .refuses := by
  revert other
  cases innermost <;> cases key <;> decide

-- The blocks that are open stop a part of the text at the keywords that they react to.
theorem reaction_refuses (kind : t.kind = .keyword key) (other : t.isAny (closersOf stack) = false) :
    reaction stack key = .refuses := by
  cases stack with
  | nil => rfl
  | cons innermost outer =>
    unfold Token.isAny at other
    rw [kind] at other
    exact meets_refuses other

-- Between two stacks, the automaton finds what the reading does, and then what is left to find.
def Parsed.Accounts {α : Type} {limit : Nat} (p : Parsed α limit) (before : List OpenBlock) (tokens : List Token)
    (after : List OpenBlock) : Prop :=
  (violations before tokens).Perm (p.issues ++ violations after p.rest)

variable {α : Type}

theorem stay_accounts (value : α) (stack : List OpenBlock) (tokens : List Token) :
    (Parsed.stay value tokens).Accounts stack tokens stack := List.Perm.refl _

variable {limit : Nat} {before after : List OpenBlock} {tokens : List Token} {p : Parsed α limit}

variable {β : Type} {between : List OpenBlock}

theorem bind_accounts
    {next : α → (rest : List Token) → rest.length ≤ limit → Parsed β rest.length} (first : p.Accounts before tokens between)
    (second : (next p.value p.rest p.fits).Accounts between p.rest after) :
    (p.bind next).Accounts before tokens after := by
  have found := first.trans (second.append_left p.issues)
  rwa [← List.append_assoc] at found

theorem map_accounts (f : α → β) (found : p.Accounts before tokens after) : (p.map f).Accounts before tokens after :=
  found

theorem after_accounts (found : p.Accounts before tokens after) : p.after.Accounts before tokens after := found

theorem quiet_accounts {rest : List Token} (moves : advance before t = (between, none))
    (found : p.Accounts between rest after) :
    p.Accounts before (t :: rest) after := by
  unfold Parsed.Accounts
  rw [violations_quiet rest moves]
  exact found

theorem advance_meets (innermost : OpenBlock) (stack : List OpenBlock) (kind : t.kind = .keyword key) :
    advance (innermost :: stack) t = match innermost.meets key with
      | .closes => (stack, none)
      | .becomes next => (next :: stack, none)
      | .repeats => (innermost :: stack, some (.extraCatch t.step.line))
      | .refuses => start (innermost :: stack) t.step.line key := by
  unfold advance
  rw [kind]
  rfl

theorem advance_start (kind : t.kind = .keyword key) (other : t.isAny (closersOf stack) = false) :
    advance stack t = start stack t.step.line key := by
  unfold advance
  rw [kind]
  dsimp only
  rw [reaction_refuses kind other]

theorem noted_accounts (value : α) (rest : List Token) (moves : advance stack t = (stack, some issue)) :
    ((Parsed.stay value rest).note [issue]).Accounts stack (t :: rest) stack :=
  List.Perm.of_eq (violations_found rest moves)

theorem control_accounts {s : Statement} (rest : List Token)
    (moves : advance stack t = (stack, if stack.any OpenBlock.isLoop then none else some issue)) :
    (if loops stack = 0 then (Parsed.stay none rest).note [issue] else .stay (some s) rest).Accounts stack (t :: rest)
      stack := by
  rw [inside_loop] at moves
  by_cases outside : loops stack = 0
  · rw [if_pos outside]
    exact noted_accounts none rest (by simpa [outside] using moves)
  · rw [if_neg outside]
    exact quiet_accounts (by simpa [outside] using moves) (stay_accounts (some s) stack rest)

theorem closing_accounts {closer : Keyword} (stack : List OpenBlock) (closes : innermost.meets closer = .closes)
    (stops : Stops [closer] tokens) :
    (closing closer tokens).Accounts (innermost :: stack) tokens stack := by
  cases tokens with
  | nil => exact List.Perm.refl _
  | cons t rest =>
    have moves := advance_meets innermost stack (stops_at stops)
    rw [closes] at moves
    exact List.Perm.of_eq (violations_quiet rest moves)

def lastPart (before after : OpenBlock) (read : Option Clause) : OpenBlock :=
  if read.isSome then after else before

section

variable {limit : Nat}
  (blocks : ∀ (stack : List OpenBlock) (tokens : List Token), tokens.length < limit →
    (block (closersOf stack) (loops stack) tokens).Accounts stack tokens stack)

include blocks

variable {tokens : List Token}

theorem part_accounts (part : OpenBlock) (plain : part.isLoop = false) (stack : List OpenBlock)
    (short : tokens.length < limit) :
    (block part.closers (loops stack) tokens).Accounts (part :: stack) tokens (part :: stack) := by
  have body := blocks (part :: stack) tokens short
  rw [loops, plain] at body
  exact body

theorem clause_accounts (before after : OpenBlock) (key : Keyword) (becomes : before.meets key = .becomes after)
    (plain : after.isLoop = false) (stack : List OpenBlock) (short : tokens.length < limit) :
    (clause key after.closers (loops stack) tokens).Accounts (before :: stack) tokens
      (lastPart before after (clause key after.closers (loops stack) tokens).value :: stack) := by
  cases tokens with
  | nil =>
    exact stay_accounts none _ []
  | cons t rest =>
    rw [clause]
    split
    · rename_i here
      have moves := advance_meets before stack here
      rw [becomes] at moves
      have body := part_accounts blocks after plain stack (Nat.lt_of_succ_lt short)
      exact after_accounts (quiet_accounts moves (map_accounts _ body))
    · exact stay_accounts none _ (t :: rest)

theorem alternatives_account (stack : List OpenBlock) (tokens : List Token) (short : tokens.length < limit) :
    (alternatives (loops stack) tokens).Accounts (.conditional :: stack) tokens (.conditional :: stack) := by
  match tokens with
  | [] =>
    exact stay_accounts [] _ []
  | t :: rest =>
    have shorter : rest.length < limit := Nat.lt_of_succ_lt short
    have fits := (block ifClosers (loops stack) rest).fits
    rw [alternatives]
    split
    · rename_i here
      have moves : advance (.conditional :: stack) t = (.conditional :: stack, none) := advance_meets _ stack here
      have body := part_accounts blocks .conditional rfl stack shorter
      have others := alternatives_account stack _ (Nat.lt_of_le_of_lt fits shorter)
      exact after_accounts (quiet_accounts moves (bind_accounts body (map_accounts _ others)))
    · exact stay_accounts [] _ (t :: rest)
termination_by tokens.length
decreasing_by exact Nat.lt_succ_of_le fits

theorem handlers_account (first : Option Clause) (stack : List OpenBlock) (tokens : List Token)
    (short : tokens.length < limit) :
    (handlers first (loops stack) tokens).Accounts (lastPart .attempt .catching first :: stack) tokens
      (lastPart .attempt .catching (handlers first (loops stack) tokens).value :: stack) := by
  match tokens with
  | [] =>
    exact stay_accounts first _ []
  | t :: rest =>
    have shorter : rest.length < limit := Nat.lt_of_succ_lt short
    have fits := (block tryClosers (loops stack) rest).fits
    rw [handlers]
    split
    · rename_i here
      have body := part_accounts blocks .catching rfl stack shorter
      cases first with
      | none =>
        have moves : advance (.attempt :: stack) t = (.catching :: stack, none) := advance_meets _ stack here
        have others := handlers_account (some ⟨t.step, (block tryClosers (loops stack) rest).value⟩) stack _
          (Nat.lt_of_le_of_lt fits shorter)
        have noted : ((block tryClosers (loops stack) rest).note []).Accounts (.catching :: stack) rest
            (.catching :: stack) := by
          unfold Parsed.Accounts
          rw [Parsed.note_issues, List.append_nil]
          exact body
        exact after_accounts (quiet_accounts moves (bind_accounts noted others))
      | some handler =>
        -- The automaton notes the extra `catch` where it stands, the reading after its body.
        have moves : advance (.catching :: stack) t = (.catching :: stack, some (.extraCatch t.step.line)) :=
          advance_meets _ stack here
        have others := handlers_account (some handler) stack _ (Nat.lt_of_le_of_lt fits shorter)
        have noted : ((block tryClosers (loops stack) rest).note [.extraCatch t.step.line]).Accounts
            (.catching :: stack) (t :: rest) (.catching :: stack) := by
          unfold Parsed.Accounts
          rw [violations_found rest moves, Parsed.note_issues, List.append_assoc]
          exact (body.cons _).trans List.perm_middle.symm
        exact after_accounts (bind_accounts noted others)
    · exact stay_accounts first _ (t :: rest)
termination_by tokens.length

theorem branch_accounts (gate : Gate) (step : Step) (stack : List OpenBlock) (short : tokens.length < limit) :
    (branch gate (loops stack) step tokens).Accounts (.conditional :: stack) tokens stack := by
  have shortOthers := Nat.lt_of_le_of_lt (block ifClosers (loops stack) tokens).fits short
  have shortLast := Nat.lt_of_le_of_lt (alternatives (loops stack) _).fits shortOthers
  have body := part_accounts blocks .conditional rfl stack short
  have others := alternatives_account blocks stack _ shortOthers
  have last := clause_accounts blocks .conditional .otherwise .else rfl rfl stack shortLast
  have stops := clause_stops .else elseClosers (loops stack) _
    (alternatives_stop (loops stack) (block_stops ifClosers (loops stack) tokens))
  have closes (read : Option Clause) : (lastPart .conditional .otherwise read).meets .ifEnd = .closes := by
    cases read <;> rfl
  rw [branch]
  exact bind_accounts body (bind_accounts others (bind_accounts last
    (map_accounts _ (closing_accounts stack (closes _) stops))))

theorem loop_accounts {kind : LoopKind} {part : OpenBlock} (closes : part.meets kind.closer = .closes)
    (closers : part.closers = [kind.closer]) (cycle : part.isLoop = true) (step : Step) (stack : List OpenBlock)
    (short : tokens.length < limit) :
    (loop kind (loops stack) step tokens).Accounts (part :: stack) tokens stack := by
  have body := blocks (part :: stack) tokens short
  have deeper : loops (part :: stack) = loops stack + 1 := by
    rw [loops, cycle]
    rfl
  rw [deeper, closersOf, closers] at body
  rw [loop]
  exact bind_accounts body (map_accounts _ (closing_accounts stack closes (block_stops _ _ tokens)))

theorem attempt_accounts (step : Step) (stack : List OpenBlock) (short : tokens.length < limit) :
    (attempt (loops stack) step tokens).Accounts (.attempt :: stack) tokens stack := by
  have shortHandler := Nat.lt_of_le_of_lt (block tryClosers (loops stack) tokens).fits short
  have shortLast := Nat.lt_of_le_of_lt (handlers none (loops stack) _).fits shortHandler
  have becomes (read : Option Clause) : (lastPart .attempt .catching read).meets .finally = .becomes .finishing := by
    cases read <;> rfl
  have closes (handler last : Option Clause) :
      (lastPart (lastPart .attempt .catching handler) .finishing last).meets .tryEnd = .closes := by
    cases handler <;> cases last <;> rfl
  have body := part_accounts blocks .attempt rfl stack short
  have handler := handlers_account blocks none stack _ shortHandler
  have last (part : OpenBlock) (becomes : part.meets .finally = .becomes .finishing) :=
    clause_accounts blocks part .finishing .finally becomes rfl stack shortLast
  have stops := clause_stops .finally finallyClosers (loops stack) _
    (handlers_stop none (loops stack) _ (block_stops tryClosers (loops stack) tokens))
  rw [attempt]
  exact bind_accounts body (bind_accounts handler (bind_accounts (last _ (becomes _))
    (map_accounts _ (closing_accounts stack (closes _ _) stops))))

theorem statement_accounts {rest : List Token} (short : rest.length < limit) (other : t.isAny (closersOf stack) = false) :
    (statement (loops stack) t rest).Accounts stack (t :: rest) stack := by
  rw [statement]
  split
  case h_1 kind =>
    have moves : advance stack t = (stack, none) := by simp [advance, kind]
    exact quiet_accounts moves (stay_accounts _ stack rest)
  case h_2 kind =>
    have moves : advance stack t = (.conditional :: stack, none) := by simp [advance, kind]
    exact quiet_accounts moves (map_accounts _ (branch_accounts blocks .call t.step stack short))
  case h_3 kind =>
    have moves : advance stack t = (.forLoop :: stack, none) := by simp [advance, kind]
    exact quiet_accounts moves (map_accounts _ (loop_accounts blocks rfl rfl rfl t.step stack short))
  case h_4 kind =>
    exact quiet_accounts (advance_start kind other)
      (map_accounts _ (branch_accounts blocks .comparison t.step stack short))
  case h_5 kind =>
    exact quiet_accounts (advance_start kind other)
      (map_accounts _ (loop_accounts blocks rfl rfl rfl t.step stack short))
  case h_6 kind | h_7 kind | h_8 kind =>
    exact quiet_accounts (advance_start kind other)
      (map_accounts _ (loop_accounts blocks rfl rfl rfl t.step stack short))
  case h_9 kind =>
    exact quiet_accounts (advance_start kind other) (map_accounts _ (attempt_accounts blocks t.step stack short))
  case h_10 kind | h_11 kind => exact control_accounts rest (advance_start kind other)
  case h_12 kind => exact quiet_accounts (advance_start kind other) (stay_accounts _ stack rest)
  case h_13 kind =>
    refine noted_accounts none rest ((advance_start kind other).trans ?_)
    unfold start
    split
    case h_10 => rfl
    all_goals contradiction

end

theorem block_accounts {limit : Nat} (stack : List OpenBlock) (tokens : List Token) (short : tokens.length < limit) :
    (block (closersOf stack) (loops stack) tokens).Accounts stack tokens stack := by
  induction limit generalizing stack tokens with
  | zero => exact absurd short (Nat.not_lt_zero _)
  | succ limit ih =>
    cases tokens with
    | nil =>
      exact stay_accounts [] stack []
    | cons t rest =>
      have shorter : rest.length < limit := Nat.lt_of_succ_lt_succ short
      rw [block]
      split
      · exact stay_accounts [] stack (t :: rest)
      · rename_i other
        have first := statement_accounts ih shorter (eq_false_of_ne_true other)
        have others := ih stack _ (Nat.lt_of_le_of_lt (statement (loops stack) t rest).fits shorter)
        exact after_accounts (bind_accounts first (map_accounts _ others))

theorem block_finds_violations (tokens : List Token) : (block [] 0 tokens).issues.Perm (violations [] tokens) := by
  have found := block_accounts [] tokens (Nat.lt_succ_self _)
  have done : (block [] 0 tokens).rest = [] := stops_nothing (block_stops [] 0 tokens)
  unfold Parsed.Accounts at found
  rw [show (block (closersOf []) (loops []) tokens).rest = [] from done, violations, List.append_nil] at found
  exact found.symm

theorem nest_finds_every_violation (tokens : List Token) :
    (∃ statements, nest tokens = .ok statements ∧ violations [] tokens = []) ∨
      ∃ issues, nest tokens = .error issues ∧ violations [] tokens ≠ [] ∧ issues.Perm (violations [] tokens) := by
  have found := block_finds_violations tokens
  unfold nest
  dsimp only
  split
  · rename_i clean
    have none : violations [] tokens = [] := by
      rw [List.isEmpty_iff.mp clean] at found
      exact found.nil_eq.symm
    exact .inl ⟨_, rfl, none⟩
  · rename_i noted
    refine .inr ⟨_, rfl, ?_, found⟩
    intro none
    rw [none] at found
    exact noted (List.isEmpty_iff.mpr found.eq_nil)

example : violations [] ([.try, .catch, .catch, .break, .tryEnd, .forEnd].mapIdx fun i key =>
    ⟨.keyword key, { line := i + 1 }⟩) = [.extraCatch 3, .outsideLoop 4 .break, .unexpected 6 .forEnd] := by
  decide

end Flowstep.Flow
