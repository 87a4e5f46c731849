import Flowstep.Flow.Nesting

/-!
Where the reading of a flow stops.
-/
namespace Flowstep.Flow

def Stops (keys : List Keyword) : List Token → Prop
  | [] => True
  | t :: _ => t.isAny keys = true

theorem stops_nothing {tokens : List Token} (stops : Stops [] tokens) : tokens = [] := by
  cases tokens with
  | nil => rfl
  | cons t rest =>
    have taken : t.isAny [] = true := stops
    unfold Token.isAny at taken
    split at taken <;> simp at taken

theorem is_any_cons (t : Token) (key : Keyword) (keys : List Keyword) :
    t.isAny (key :: keys) = (decide (t.kind = .keyword key) || t.isAny keys) := by
  unfold Token.isAny
  cases t.kind with
  | keyword word => simp
  | atomic => simp
  | condition => simp
  | iterator => simp

variable {key : Keyword} {t : Token} {rest : List Token}

theorem stops_tail {keys : List Keyword}
    (stops : Stops (key :: keys) (t :: rest)) (other : t.kind ≠ .keyword key) : Stops keys (t :: rest) := by
  have taken : t.isAny (key :: keys) = true := stops
  rw [is_any_cons, decide_eq_false other] at taken
  exact taken

theorem stops_at (stops : Stops [key] (t :: rest)) : t.kind = .keyword key := by
  by_cases there : t.kind = .keyword key
  · exact there
  · exact absurd (stops_nothing (stops_tail stops there)) (List.cons_ne_nil t rest)

theorem block_stops (closers : List Keyword) (depth : Nat) (tokens : List Token) :
    Stops closers (block closers depth tokens).rest := by
  match tokens with
  | [] =>
    trivial
  | t :: rest =>
    rw [block]
    split
    · assumption
    · exact block_stops closers depth (statement depth t rest).rest
termination_by tokens.length
decreasing_by exact Nat.lt_succ_of_le (statement depth t rest).fits

theorem clause_stops (key : Keyword) (closers : List Keyword) (depth : Nat) (tokens : List Token)
    (stops : Stops (key :: closers) tokens) : Stops closers (clause key closers depth tokens).rest := by
  cases tokens with
  | nil =>
    trivial
  | cons t rest =>
    rw [clause]
    split
    · exact block_stops closers depth rest
    · exact stops_tail stops ‹_›

theorem alternatives_stop (depth : Nat) {tokens : List Token} (stops : Stops ifClosers tokens) :
    Stops [.else, .ifEnd] (alternatives depth tokens).rest := by
  match tokens with
  | [] =>
    trivial
  | t :: rest =>
    rw [alternatives]
    split
    · exact alternatives_stop depth (block_stops ifClosers depth rest)
    · exact stops_tail stops ‹_›
termination_by tokens.length
decreasing_by exact Nat.lt_succ_of_le (block ifClosers depth rest).fits

theorem handlers_stop (first : Option Clause) (depth : Nat) (tokens : List Token) (stops : Stops tryClosers tokens) :
    Stops [.finally, .tryEnd] (handlers first depth tokens).rest := by
  match tokens with
  | [] =>
    trivial
  | t :: rest =>
    rw [handlers]
    split
    · exact handlers_stop _ depth (block tryClosers depth rest).rest (block_stops tryClosers depth rest)
    · exact stops_tail stops ‹_›
termination_by tokens.length
decreasing_by exact Nat.lt_succ_of_le (block tryClosers depth rest).fits

end Flowstep.Flow
