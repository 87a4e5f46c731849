import Flowstep.Report.Sink
import Mathlib.Data.List.Induction
import Mathlib.Data.List.Nodup
import Mathlib.Data.List.Perm.Basic

/-!
A sink with its observers under all that can happen to it.
-/
namespace Flowstep.Report

structure Splits (all kept gone : List Event) : Prop where
  order : kept.Sublist all
  whole : all.Perm (kept ++ gone)

def Droppable (events : List Event) : Prop := ∀ e ∈ events, e.kind = .code

theorem droppable_iff {k : Kind} : k.isDroppable = true ↔ k = .code := by cases k <;> decide

theorem splits_all (events : List Event) : Splits events events [] := ⟨.refl _, by rw [List.append_nil]⟩

variable {all kept gone : List Event}

theorem splits_keep (e : Event) (splits : Splits all kept gone) :
    Splits (e :: all) (e :: kept) gone := ⟨splits.order.cons_cons e, splits.whole.cons e⟩

theorem splits_drop (e : Event) (splits : Splits all kept gone) :
    Splits (e :: all) kept (e :: gone) :=
  ⟨splits.order.cons e, (splits.whole.cons e).trans List.perm_middle.symm⟩

theorem splits_more (more : List Event) (splits : Splits all kept gone) :
    Splits (all ++ more) (kept ++ more) gone := by
  refine ⟨splits.order.append (.refl _), (splits.whole.append_right more).trans ?_⟩
  rw [List.append_assoc, List.append_assoc]
  exact List.perm_append_comm.append_left kept

theorem splits_trans {rest lost : List Event} (first : Splits all kept gone) (second : Splits kept rest lost) :
    Splits all rest (lost ++ gone) := by
  refine ⟨second.order.trans first.order, ?_⟩
  rw [← List.append_assoc]
  exact first.whole.trans (second.whole.append_right gone)

theorem splits_after (front : List Event) (splits : Splits all kept gone) :
    Splits (front ++ all) (front ++ kept) gone := by
  refine ⟨splits.order.append_left front, ?_⟩
  rw [List.append_assoc]
  exact splits.whole.append_left front

theorem splits_length (splits : Splits all kept gone) :
    all.length = kept.length + gone.length := by
  rw [splits.whole.length_eq, List.length_append]

namespace Queue

theorem shed_splits (low n : Nat) (events : List Event) : ∃ gone, Splits events (shed low n events) gone ∧ Droppable gone := by
  induction events generalizing n with
  | nil => exact ⟨[], splits_all [], by simp [Droppable]⟩
  | cons e rest ih =>
    rw [shed]
    split
    · exact ⟨[], splits_all _, by simp [Droppable]⟩
    · split
      · rename_i drops
        obtain ⟨gone, splits, droppable⟩ := ih (n - 1)
        exact ⟨e :: gone, splits_drop e splits, List.forall_mem_cons.mpr ⟨(droppable_iff).mp drops, droppable⟩⟩
      · obtain ⟨gone, splits, droppable⟩ := ih n
        exact ⟨gone, splits_keep e splits, droppable⟩

theorem relieve_splits (q : Queue) : ∃ gone,
    Splits q.events q.relieve.events gone ∧ q.relieve.dropped = q.dropped + gone.length ∧ Droppable gone := by
  unfold relieve
  split
  · obtain ⟨gone, splits, droppable⟩ := shed_splits q.lowMark q.events.length q.events
    have lengths := splits_length splits
    exact ⟨gone, splits, by dsimp only; omega, droppable⟩
  · exact ⟨[], splits_all _, rfl, by simp [Droppable]⟩

theorem push_splits (q : Queue) (e : Event) : ∃ gone,
    Splits (q.events ++ [e]) (q.push e).events gone ∧ (q.push e).dropped = q.dropped + gone.length ∧ Droppable gone := by
  obtain ⟨gone, splits, counted, droppable⟩ := q.relieve_splits
  unfold push
  dsimp only
  split
  · rename_i full
    have code := (droppable_iff).mp (Bool.and_eq_true_iff.mp full).1
    refine ⟨e :: gone, ?_, by rw [counted, List.length_cons, Nat.add_assoc], List.forall_mem_cons.mpr ⟨code, droppable⟩⟩
    have last : Splits (q.relieve.events ++ [e]) q.relieve.events [e] := ⟨List.sublist_append_left _ _, .refl _⟩
    exact splits_trans (splits_more [e] splits) last
  · exact ⟨gone, splits_more [e] splits, counted, droppable⟩

end Queue

structure Delivery where
  sink : Sink
  -- The observers that have the event in flight, and those that do not have it yet.
  told : List (List Event) := []
  untold : List (List Event)
  emitted : List Event := []
  exited : Bool := false

inductive Action where
  | emit (level : Level) (kind : Kind) (data : Json)
  | fetch
  | hand
  | settle
  | close
  | exit

namespace Delivery

def observers (d : Delivery) : List (List Event) := d.told ++ d.untold

def start (capacity watchers : Nat) : Delivery := { sink := .new capacity, untold := List.replicate watchers [] }

-- A step that cannot be taken changes nothing.
def step (d : Delivery) : Action → Delivery
  | .emit level kind data =>
    { d with
      sink := (d.sink.emit level kind data).2
      emitted := if d.sink.closed then d.emitted else d.emitted ++ [⟨d.sink.nextSeq, level, kind, data⟩] }
  | .fetch => if d.exited then d else { d with sink := d.sink.fetch }
  | .hand =>
    match d.sink.inFlight, d.untold with
    | some e, received :: others => { d with told := d.told ++ [e :: received], untold := others }
    | _, _ => d
  | .settle =>
    if d.sink.inFlight.isSome && d.untold.isEmpty then { d with sink := d.sink.deliver, told := [], untold := d.told }
    else d
  | .close => { d with sink := d.sink.close }
  | .exit => if d.sink.closed && d.sink.isIdle then { d with exited := true } else d

def run (d : Delivery) (actions : List Action) : Delivery := actions.foldl step d

variable (d : Delivery) (actions : List Action)

theorem run_snoc (a : Action) : d.run (actions ++ [a]) = (d.run actions).step a := by
  simp [run]

def line (d : Delivery) : List Event := d.sink.delivered.reverse ++ d.sink.inFlight.toList ++ d.sink.queue.events

structure Sound (d : Delivery) : Prop where
  accounts : ∃ lost, Splits d.emitted d.line lost ∧ d.sink.dropped = lost.length ∧ Droppable lost
  numbered : d.emitted.Pairwise fun earlier later => earlier.seq < later.seq
  below : ∀ e ∈ d.emitted, e.seq < d.sink.nextSeq
  counted : d.sink.closed = false → d.emitted.map Event.seq = List.range d.sink.nextSeq
  told : ∀ received ∈ d.told, received = d.sink.inFlight.toList ++ d.sink.delivered
  untold : ∀ received ∈ d.untold, received = d.sink.delivered
  landed : d.sink.inFlight = none → d.told = []
  exited : d.exited = true → d.sink.closed = true ∧ d.sink.isIdle = true

theorem idle_iff (s : Sink) : s.isIdle = true ↔ s.queue.events = [] ∧ s.inFlight = none := by
  simp [Sink.isIdle]

theorem sound_start (capacity watchers : Nat) : Sound (start capacity watchers) where
  accounts := ⟨[], splits_all [], rfl, by simp [Droppable]⟩
  numbered := .nil
  below := by simp [start]
  counted _ := rfl
  told := by simp [start]
  untold received mem := List.eq_of_mem_replicate mem
  landed _ := rfl
  exited := by simp [start]

section

variable {d : Delivery} (sound : Sound d)

include sound

theorem sound_emit (level : Level) (kind : Kind) (data : Json) : Sound (d.step (.emit level kind data)) := by
  rw [step, Sink.emit]
  split
  · rename_i shut
    exact { sound with
      below := fun e mem => Nat.lt_succ_of_lt (sound.below e mem)
      counted := fun opened => absurd (opened.symm.trans shut) Bool.false_ne_true }
  · rename_i opened
    let e : Event := ⟨d.sink.nextSeq, level, kind, data⟩
    obtain ⟨lost, splits, counted, droppable⟩ := sound.accounts
    obtain ⟨gone, pushes, more, others⟩ := d.sink.queue.push_splits e
    refine { sound with
      accounts := ⟨gone ++ lost, ?_, ?_, List.forall_mem_append.mpr ⟨others, droppable⟩⟩
      numbered := ?_
      below := ?_
      counted := fun opened => ?_
      exited := fun exited => absurd (sound.exited exited).1 opened }
    · have longer := splits_more [e] splits
      rw [line, List.append_assoc] at longer
      exact splits_trans longer (splits_after (d.sink.delivered.reverse ++ d.sink.inFlight.toList) pushes)
    · refine more.trans ?_
      rw [List.length_append, ← counted, Nat.add_comm]
      rfl
    · refine List.pairwise_append.mpr ⟨sound.numbered, List.pairwise_singleton _ _, fun earlier mem later last => ?_⟩
      rw [List.mem_singleton.mp last]
      exact sound.below earlier mem
    · refine List.forall_mem_append.mpr ⟨fun earlier mem => Nat.lt_succ_of_lt (sound.below earlier mem), ?_⟩
      exact List.forall_mem_singleton.mpr (Nat.lt_succ_self _)
    · rw [List.map_append, sound.counted opened, List.range_succ]
      rfl

theorem sound_fetch : Sound (d.step .fetch) := by
  rw [step]
  split
  · exact sound
  · rename_i working
    unfold Sink.fetch Queue.pop?
    cases flight : d.sink.inFlight with
    | some e => exact sound
    | none =>
      cases waiting : d.sink.queue.events with
      | nil => exact sound
      | cons e rest =>
        have none_told : d.told = [] := sound.landed flight
        exact { sound with
          accounts := by
            have accounts := sound.accounts
            rw [line, flight, waiting] at accounts
            simpa [line, Sink.dropped] using accounts
          told := by simp [none_told]
          landed := fun _ => none_told
          exited := fun exited => absurd exited working }

theorem sound_hand : Sound (d.step .hand) := by
  rw [step]
  split
  · rename_i e received others flight pending
    refine { sound with told := ?_, untold := ?_, landed := ?_ }
    · refine List.forall_mem_append.mpr ⟨sound.told, List.forall_mem_singleton.mpr ?_⟩
      rw [flight, sound.untold received (by rw [pending]; exact List.mem_cons_self)]
      rfl
    · intro received mem
      exact sound.untold received (by rw [pending]; exact List.mem_cons_of_mem _ mem)
    · intro landed
      rw [flight] at landed
      cases landed
  · exact sound

theorem sound_settle : Sound (d.step .settle) := by
  rw [step]
  split
  · rename_i ready
    obtain ⟨flies, all⟩ := Bool.and_eq_true_iff.mp ready
    obtain ⟨e, flight⟩ := Option.isSome_iff_exists.mp flies
    have told := sound.told
    rw [flight] at told
    unfold Sink.deliver
    rw [flight]
    exact { sound with
      accounts := by
        have accounts := sound.accounts
        rw [line, flight] at accounts
        simpa [line, Sink.dropped] using accounts
      told := by simp
      untold := told
      landed := fun _ => rfl
      exited := fun exited => by
        have landed := ((idle_iff _).mp (sound.exited exited).2).2
        rw [flight] at landed
        cases landed }
  · exact sound

theorem sound_close : Sound (d.step .close) := { sound with
  counted := fun opened => absurd opened.symm Bool.false_ne_true
  exited := fun exited => ⟨rfl, (sound.exited exited).2⟩ }

theorem sound_exit : Sound (d.step .exit) := by
  rw [step]
  split
  · rename_i ready
    exact { sound with exited := fun _ => Bool.and_eq_true_iff.mp ready }
  · exact sound

theorem sound_step (a : Action) : Sound (d.step a) := by
  cases a with
  | emit level kind data => exact sound_emit sound level kind data
  | fetch => exact sound_fetch sound
  | hand => exact sound_hand sound
  | settle => exact sound_settle sound
  | close => exact sound_close sound
  | exit => exact sound_exit sound

variable {received : List Event}

theorem received_first (mem : received ∈ d.observers) : received.reverse <+: d.line := by
  rw [line]
  rcases List.mem_append.mp mem with told | untold
  · rw [sound.told received told, List.reverse_append]
    cases d.sink.inFlight <;> exact List.prefix_append _ _
  · rw [sound.untold received untold, List.append_assoc]
    exact List.prefix_append _ _

theorem received_sublist (mem : received ∈ d.observers) : received.reverse.Sublist d.emitted := by
  obtain ⟨lost, splits, -⟩ := sound.accounts
  exact (received_first sound mem).sublist.trans splits.order

theorem received_numbered (mem : received ∈ d.observers) :
    received.reverse.Pairwise fun earlier later => earlier.seq < later.seq :=
  sound.numbered.sublist (received_sublist sound mem)

theorem received_once (mem : received ∈ d.observers) {e : Event} (got : e ∈ received) :
    (received.map Event.seq).count e.seq = 1 := by
  have apart : (received.reverse.map Event.seq).Nodup :=
    List.pairwise_map.mpr ((received_numbered sound mem).imp Nat.ne_of_lt)
  rw [List.map_reverse, List.nodup_reverse] at apart
  exact List.count_eq_one_of_mem apart (List.mem_map_of_mem got)

theorem idle_received (idle : d.sink.isIdle = true) (mem : received ∈ d.observers) : received.reverse = d.line := by
  obtain ⟨empty, landed⟩ := (idle_iff _).mp idle
  rw [observers, sound.landed landed] at mem
  rw [sound.untold received mem]
  simp [line, empty, landed]

theorem idle_accounts (idle : d.sink.isIdle = true) : ∃ lost, lost.length = d.sink.dropped ∧ Droppable lost ∧
    ∀ received ∈ d.observers, d.emitted.Perm (received ++ lost) := by
  obtain ⟨lost, splits, counted, droppable⟩ := sound.accounts
  refine ⟨lost, counted.symm, droppable, fun received mem => ?_⟩
  have whole := splits.whole
  rw [← idle_received sound idle mem] at whole
  exact whole.trans ((List.reverse_perm received).append_right lost)

end

theorem sound_run {d : Delivery} (sound : Sound d) (actions : List Action) : Sound (d.run actions) := by
  induction actions using List.reverseRecOn with
  | nil => exact sound
  | append_singleton actions a ih =>
    rw [run_snoc]
    exact sound_step ih a

theorem step_keeps (a : Action) : d.emitted ⊆ (d.step a).emitted ∧ (d.step a).observers.length = d.observers.length := by
  cases a with
  | emit level kind data =>
    refine ⟨?_, rfl⟩
    rw [step]
    split
    · exact List.Subset.refl _
    · exact List.subset_append_left _ _
  | fetch =>
    rw [step]
    split <;> exact ⟨List.Subset.refl _, rfl⟩
  | hand =>
    rw [step]
    split
    · rename_i e received others flight pending
      refine ⟨List.Subset.refl _, ?_⟩
      simp only [observers, pending, List.length_append, List.length_cons, List.length_nil]
      omega
    · exact ⟨List.Subset.refl _, rfl⟩
  | settle =>
    rw [step]
    split
    · rename_i ready
      have all := List.isEmpty_iff.mp (Bool.and_eq_true_iff.mp ready).2
      exact ⟨List.Subset.refl _, by simp [observers, all]⟩
    · exact ⟨List.Subset.refl _, rfl⟩
  | close => exact ⟨List.Subset.refl _, rfl⟩
  | exit =>
    rw [step]
    split <;> exact ⟨List.Subset.refl _, rfl⟩

theorem run_keeps : d.emitted ⊆ (d.run actions).emitted ∧ (d.run actions).observers.length = d.observers.length := by
  induction actions using List.reverseRecOn with
  | nil => exact ⟨List.Subset.refl _, rfl⟩
  | append_singleton actions a ih =>
    rw [run_snoc]
    have last := step_keeps (d.run actions) a
    exact ⟨List.Subset.trans ih.1 last.1, last.2.trans ih.2⟩

-- Nothing that was emitted before the sink was closed is lost without being counted. Every observer receives events with
-- rising numbers. When the delivery exits it has received each of those events once, but for the events about code lines
-- that have been counted. A flush succeeds when the sink is idle, and by then this holds of all that was emitted before
-- the flush began and before the sink was closed.
theorem sink_loses_what_it_counts (capacity watchers : Nat) (actions : List Action) :
    let d := (start capacity watchers).run actions
    d.observers.length = watchers ∧
      (d.sink.closed = false → d.emitted.map Event.seq = List.range d.sink.nextSeq) ∧
      (∀ received ∈ d.observers, received.reverse.Pairwise fun earlier later => earlier.seq < later.seq) ∧
      (d.exited = true → ∀ received ∈ d.observers,
        (∀ e ∈ d.emitted, e.kind ≠ .code → e ∈ received ∧ (received.map Event.seq).count e.seq = 1) ∧
          received.length + d.sink.dropped = d.emitted.length) ∧
      ∀ later, let f := d.run later
        f.sink.isIdle = true → ∃ lost : List Event, lost.length = f.sink.dropped ∧ (∀ e ∈ lost, e.kind = .code) ∧
          (∀ received ∈ f.observers, f.emitted.Perm (received ++ lost)) ∧
          ∀ e ∈ d.emitted, e ∈ lost ∨ ∀ received ∈ f.observers, e ∈ received := by
  intro d
  have sound := sound_run (sound_start capacity watchers) actions
  refine ⟨?_, sound.counted, fun received mem => received_numbered sound mem, fun exited received mem => ?_, ?_⟩
  · rw [(run_keeps _ actions).2]
    simp [start, observers]
  · obtain ⟨lost, counted, droppable, whole⟩ := idle_accounts sound (sound.exited exited).2
    refine ⟨fun e emitted other => ?_, ?_⟩
    · have got : e ∈ received := by
        rcases List.mem_append.mp ((whole received mem).subset emitted) with got | dropped
        · exact got
        · exact absurd (droppable e dropped) other
      exact ⟨got, received_once sound mem got⟩
    · rw [← counted, ← List.length_append]
      exact (whole received mem).length_eq.symm
  · intro later f idle
    obtain ⟨lost, counted, droppable, whole⟩ := idle_accounts (sound_run sound later) idle
    refine ⟨lost, counted, droppable, whole, fun e emitted => ?_⟩
    by_cases dropped : e ∈ lost
    · exact .inl dropped
    · refine .inr fun received mem => ?_
      have kept := (whole received mem).subset ((run_keeps d later).1 emitted)
      exact (List.mem_append.mp kept).resolve_right dropped

def flooded : List Action :=
  List.replicate 5 (.emit .info .code .null) ++
    [.emit .info .tip .null, .fetch, .hand, .close, .hand, .settle, .fetch, .hand, .hand, .settle, .fetch, .hand, .hand,
      .settle, .exit]

theorem flooded_sink_counts :
    let d := (start 5 2).run flooded
    d.exited = true ∧ d.sink.dropped = 3 ∧ d.observers.map (·.map Event.seq) = [[5, 4, 3], [5, 4, 3]] ∧
      ∀ received ∈ d.observers, received.length + 3 = 6 := by
  have exited : ((start 5 2).run flooded).exited = true := by decide +kernel
  have dropped : ((start 5 2).run flooded).sink.dropped = 3 := by decide +kernel
  have emitted : ((start 5 2).run flooded).emitted.length = 6 := by decide +kernel
  refine ⟨exited, dropped, by decide +kernel, fun received mem => ?_⟩
  have counts := ((sink_loses_what_it_counts 5 2 flooded).2.2.2.1 exited received mem).2
  rwa [dropped, emitted] at counts

-- An event that comes after the sink was closed has its number, but it is neither received nor counted.
theorem event_after_close_not_counted :
    let d := (start 5 1).run [.close, .exit, .emit .info .tip .null]
    d.sink.nextSeq = 1 ∧ d.sink.isIdle = true ∧ d.observers.map List.length = [0] ∧ d.sink.dropped = 0 := by
  decide +kernel

end Delivery

end Flowstep.Report
