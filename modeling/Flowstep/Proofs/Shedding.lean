import Flowstep.Proofs.Delivery

/-!
A queue of events under any pushes and pops.
-/
namespace Flowstep.Report

def codes (events : List Event) : List Event := events.filter (·.kind = .code)

def others (events : List Event) : List Event := events.filter (·.kind ≠ .code)

def withoutOldest : Nat → List Event → List Event
  | 0, events => events
  | _ + 1, [] => []
  | n + 1, e :: rest => if e.kind = .code then withoutOldest n rest else e :: withoutOldest (n + 1) rest

variable (n : Nat) (events : List Event)

theorem without_oldest_nil : withoutOldest n [] = [] := by cases n <;> rfl

theorem codes_others_length : (codes events).length + (others events).length = events.length := by
  have parts := List.length_eq_countP_add_countP (fun e : Event => decide (e.kind = Kind.code)) (l := events)
  rw [List.countP_eq_length_filter, List.countP_eq_length_filter] at parts
  simpa [codes, others] using parts.symm

theorem without_oldest_splits : Splits events (withoutOldest n events) ((codes events).take n) := by
  induction events generalizing n with
  | nil =>
    rw [without_oldest_nil, codes, List.filter_nil, List.take_nil]
    exact splits_all []
  | cons e rest ih =>
    cases n with
    | zero => exact splits_all _
    | succ n =>
      rw [withoutOldest, codes]
      by_cases code : e.kind = .code
      · rw [if_pos code, List.filter_cons_of_pos (by simpa using code)]
        exact splits_drop e (ih n)
      · rw [if_neg code, List.filter_cons_of_neg (by simpa using code)]
        exact splits_keep e (ih (n + 1))

theorem without_oldest_length : (withoutOldest n events).length + min n (codes events).length = events.length := by
  rw [splits_length (without_oldest_splits n events), List.length_take]

theorem codes_without_oldest : codes (withoutOldest n events) = (codes events).drop n := by
  induction events generalizing n with
  | nil => simp [without_oldest_nil, codes]
  | cons e rest ih =>
    cases n with
    | zero => rfl
    | succ n =>
      unfold codes at ih ⊢
      by_cases code : e.kind = .code
      · simp [withoutOldest, code, ih]
      · simp [withoutOldest, code, ih]

theorem others_kept {all kept gone : List Event} (splits : Splits all kept gone) (droppable : Droppable gone) :
    others kept = others all := by
  have none : others gone = [] := List.filter_eq_nil_iff.mpr fun e member => by simp [droppable e member]
  have lengths := (splits.whole.filter fun e => decide (e.kind ≠ .code)).length_eq
  rw [List.filter_append, List.length_append] at lengths
  change (others all).length = (others kept).length + (others gone).length at lengths
  rw [none] at lengths
  exact (splits.order.filter _).eq_of_length lengths.symm

namespace Queue

variable (q : Queue) (e : Event)

def excess : Nat := if q.highMark ≤ q.events.length then q.events.length - q.lowMark else 0

theorem shed_oldest (low n : Nat) (events : List Event) : shed low n events = withoutOldest (n - low) events := by
  induction events generalizing n with
  | nil => rw [shed, without_oldest_nil]
  | cons e rest ih =>
    rw [shed]
    split
    · rename_i few
      rw [Nat.sub_eq_zero_of_le few, withoutOldest]
    · have more : n - low = n - 1 - low + 1 := by omega
      rw [ih, ih, more, withoutOldest]
      simp only [droppable_iff]

theorem relieve_events : q.relieve.events = withoutOldest q.excess q.events := by
  unfold relieve excess
  split
  · exact shed_oldest q.lowMark q.events.length q.events
  · rw [withoutOldest]

theorem relieve_capacity : q.relieve.capacity = q.capacity := by
  unfold relieve
  split <;> rfl

theorem push_capacity : (q.push e).capacity = q.capacity := by
  unfold push
  dsimp only
  split <;> exact q.relieve_capacity

-- An event is refused only if it may be dropped and the queue is full of events that may not.
theorem push_events : (q.push e).events = withoutOldest q.excess q.events ++
    if e.kind = .code ∧ q.capacity ≤ (withoutOldest q.excess q.events).length then [] else [e] := by
  unfold push
  dsimp only
  rw [relieve_events, relieve_capacity]
  simp only [Bool.and_eq_true, droppable_iff, decide_eq_true_eq]
  split
  · exact (List.append_nil _).symm
  · rfl

-- A mark that has wrapped is lower still, but no event is shed while the queue is at its low mark or below.
theorem relieved : (withoutOldest q.excess q.events).length < max (4 * q.capacity / 5) 1 ∨
    codes (withoutOldest q.excess q.events) = [] := by
  have lengths := without_oldest_length q.excess q.events
  have mark : q.highMark ≤ max (4 * q.capacity / 5) 1 := by
    have wrapped := Nat.mod_le (q.capacity * 4) UInt64.size
    unfold highMark
    omega
  rw [codes_without_oldest, List.drop_eq_nil_iff]
  unfold excess lowMark at *
  split at lengths <;> rename_i full
  · rw [if_pos full]
    omega
  · rw [if_neg full]
    omega

-- A queue beyond its high mark holds at most one event that may be dropped: the last one that came.
def Bounded : Prop := q.events.length ≤ max (4 * q.capacity / 5) 1 ∨ (codes q.events).length ≤ 1

theorem push_bounded : (q.push e).Bounded := by
  rw [Bounded, push_capacity, push_events, codes, List.filter_append, List.length_append]
  have one : (if e.kind = .code ∧ q.capacity ≤ (withoutOldest q.excess q.events).length then [] else [e]).length ≤ 1 := by
    split <;> simp
  rcases q.relieved with low | kept
  · exact .inl (by omega)
  · right
    rw [show List.filter _ (withoutOldest q.excess q.events) = [] from kept]
    exact Nat.le_trans (by simpa using List.length_filter_le _ _) one

theorem pop_bounded {q rest : Queue} {e : Event} (bounded : q.Bounded) (pops : q.pop? = some (e, rest)) : rest.Bounded := by
  unfold pop? at pops
  split at pops
  · cases pops
  · rename_i first later waiting
    cases pops
    unfold Bounded at *
    rw [waiting] at bounded
    rcases bounded with low | few
    · exact .inl (Nat.le_trans (Nat.le_succ _) low)
    · exact .inr (Nat.le_trans ((List.sublist_cons_self e later).filter _).length_le few)

end Queue

inductive QueueStep where
  | push (e : Event)
  | pop

structure History where
  queue : Queue
  pushed : List Event := []
  popped : List Event := []

namespace History

def step (h : History) : QueueStep → History
  | .push e => { h with queue := h.queue.push e, pushed := h.pushed ++ [e] }
  | .pop =>
    match h.queue.pop? with
    | some (e, queue) => { h with queue, popped := h.popped ++ [e] }
    | none => h

def after (capacity : Nat) (steps : List QueueStep) : History := steps.foldl step { queue := .new capacity }

structure Sound (capacity : Nat) (h : History) : Prop where
  accounts : ∃ lost, Splits h.pushed (h.popped ++ h.queue.events) lost ∧ h.queue.dropped = lost.length ∧ Droppable lost
  capacity : h.queue.capacity = max capacity 1
  bounded : h.queue.Bounded

variable {capacity : Nat} {h : History}

theorem sound_push (sound : Sound capacity h) (e : Event) : Sound capacity (h.step (.push e)) where
  accounts := by
    obtain ⟨lost, splits, counted, droppable⟩ := sound.accounts
    obtain ⟨gone, pushes, more, code⟩ := h.queue.push_splits e
    refine ⟨gone ++ lost, ?_, ?_, List.forall_mem_append.mpr ⟨code, droppable⟩⟩
    · have longer := splits_more [e] splits
      rw [List.append_assoc] at longer
      exact splits_trans longer (splits_after h.popped pushes)
    · rw [List.length_append, ← counted, Nat.add_comm]
      exact more
  capacity := (h.queue.push_capacity e).trans sound.capacity
  bounded := h.queue.push_bounded e

theorem sound_pop (sound : Sound capacity h) : Sound capacity (h.step .pop) := by
  rw [step]
  cases pops : h.queue.pop? with
  | none => exact sound
  | some taken =>
    have bounded := Queue.pop_bounded sound.bounded pops
    unfold Queue.pop? at pops
    split at pops
    · cases pops
    · rename_i first later waiting
      cases pops
      obtain ⟨lost, splits, counts⟩ := sound.accounts
      rw [waiting] at splits
      exact ⟨⟨lost, by simpa using splits, counts⟩, sound.capacity, bounded⟩

theorem sound_after (capacity : Nat) (steps : List QueueStep) : Sound capacity (after capacity steps) := by
  induction steps using List.reverseRecOn with
  | nil => exact ⟨⟨[], splits_all [], rfl, by simp [Droppable]⟩, rfl, .inr (Nat.zero_le 1)⟩
  | append_singleton steps s ih =>
    rw [after, List.foldl_append]
    cases s with
    | push e => exact sound_push ih e
    | pop => exact sound_pop ih

theorem queue_drops_oldest (capacity : Nat) (steps : List QueueStep) :
    let h := after capacity steps
    (h.popped ++ h.queue.events).Sublist h.pushed ∧
      others (h.popped ++ h.queue.events) = others h.pushed ∧
      h.pushed.length = h.popped.length + h.queue.events.length + h.queue.dropped ∧
      ∀ e, ∃ n, let kept := withoutOldest n h.queue.events
        Splits h.queue.events kept ((codes h.queue.events).take n) ∧
        ((h.queue.push e).events = kept ++ [e] ∨ e.kind = .code ∧ (h.queue.push e).events = kept) ∧
        (∀ k < n, capacity / 5 < (withoutOldest k h.queue.events).length) ∧
        (n = 0 ∨ kept.length = capacity / 5 ∨ codes kept = []) := by
  intro h
  obtain ⟨⟨lost, splits, counted, droppable⟩, size, -⟩ := sound_after capacity steps
  refine ⟨splits.order, others_kept splits droppable, ?_, fun e => ⟨h.queue.excess,
    without_oldest_splits _ _, ?_, fun k below => ?_, ?_⟩⟩
  · rw [splits_length splits, List.length_append, counted]
  · rw [Queue.push_events]
    split
    · rename_i refused
      exact .inr ⟨refused.1, List.append_nil _⟩
    · exact .inl rfl
  · have lengths := without_oldest_length k h.queue.events
    unfold Queue.excess Queue.lowMark at below
    split at below
    · rw [size] at below
      omega
    · exact absurd below (Nat.not_lt_zero k)
  · have lengths := without_oldest_length h.queue.excess h.queue.events
    rw [codes_without_oldest, List.drop_eq_nil_iff]
    unfold Queue.excess Queue.lowMark at *
    split
    · rename_i full
      rw [if_pos full, size] at lengths
      rw [size]
      omega
    · exact .inl rfl

theorem queue_bounded (capacity : Nat) (steps : List QueueStep) :
    let q := (after capacity steps).queue
    (q.events.length ≤ max (4 * capacity / 5) 1 ∨ (codes q.events).length ≤ 1) ∧
      q.events.length ≤ max (max (4 * capacity / 5) 1) ((others q.events).length + 1) := by
  intro q
  obtain ⟨_, size, bounded⟩ := sound_after capacity steps
  have mark : max (4 * q.capacity / 5) 1 = max (4 * capacity / 5) 1 := by
    rw [size]
    omega
  have either : q.events.length ≤ max (4 * capacity / 5) 1 ∨ (codes q.events).length ≤ 1 := mark ▸ bounded
  have whole := codes_others_length q.events
  exact ⟨either, by omega⟩

end History

end Flowstep.Report
