import Flowstep.Run.Control
import Mathlib.Data.List.Induction

/-!
The shared state of a run under all that can happen to it.
-/
namespace Flowstep.Run

inductive Call where
  | send (command : Command)
  | stop

def Control.receive (c : Control) : Call → Control
  | .send command =>
    match c.send command with
    | .ok sent => sent
    | .error _ => c
  | .stop => c.forceStop

inductive Stance where
  | ready
  | working
  | pausing
  | past
deriving DecidableEq

structure Steered where
  control : Control := {}
  place : Stance := .ready
  pauses : Nat := 0
  accepted : List (Nat × Command) := []
  taken : List (Nat × Command) := []

inductive Move where
  | start
  | pause (p : Pause)
  | look
  | finish (o : Outcome)
  | call (call : Call)

namespace Steered

-- A thread that finds nothing goes on waiting. A stop counts for more than a command.
def look (s : Steered) : Steered :=
  if s.control.stopped then { s with control := s.control.haltInPause, place := .working }
  else match s.control.command with
    | none => s
    | some command =>
      { s with control := s.control.dropCommand, place := .working, taken := (s.pauses, command) :: s.taken }

def receive (s : Steered) : Call → Steered
  | .send command =>
    match s.control.send command with
    | .ok sent => { s with control := sent, accepted := (s.pauses, command) :: s.accepted }
    | .error _ => s
  | .stop => { s with control := s.control.forceStop }

def step (s : Steered) : Move → Steered
  | .start => if s.place = .ready then { s with control := s.control.start, place := .working } else s
  | .pause p =>
    if s.place = .working then
      { s with control := s.control.enterPause p, place := .pausing, pauses := s.pauses + 1 }
    else s
  | .look => if s.place = .pausing then s.look else s
  | .finish o => if s.place = .working then { s with control := s.control.finish o, place := .past } else s
  | .call call => s.receive call

def run (moves : List Move) : Steered := moves.foldl step {}

theorem run_snoc (moves : List Move) (m : Move) : run (moves ++ [m]) = (run moves).step m := by
  simp [run]

end Steered

namespace Control

variable {c : Control}

theorem send_paused (paused : c.status = .paused) (command : Command) :
    c.send command = .ok { c with command := some command, status := .running, pause := none } := if_pos paused

theorem send_refused (other : c.status ≠ .paused) (command : Command) :
    c.send command = .error (if c.status.isTerminal then .finished else .notPaused) := by
  unfold send
  rw [if_neg other]
  split <;> rfl

theorem sent_iff (command : Command) : (∃ sent, c.send command = .ok sent) ↔ c.status = .paused := by
  constructor
  · rintro ⟨sent, sends⟩
    by_contra other
    rw [send_refused other] at sends
    cases sends
  · exact fun paused => ⟨_, send_paused paused command⟩

end Control

theorem ended_terminal (o : Outcome) : o.status.isTerminal = true := by
  cases o with
  | succeeded => rfl
  | cancelled => rfl
  | failed => rfl

theorem ended_not_paused (o : Outcome) : o.status ≠ .paused := by
  intro paused
  have ended := ended_terminal o
  rw [paused] at ended
  cases ended

namespace Steered

theorem send_step {s : Steered} (paused : s.control.status = .paused) (command : Command) :
    s.step (.call (.send command)) =
      { s with
        control := { s.control with command := some command, status := .running, pause := none }
        accepted := (s.pauses, command) :: s.accepted } := by
  rw [step, receive, Control.send_paused paused]

theorem refused_step {s : Steered} (other : s.control.status ≠ .paused) (command : Command) :
    s.step (.call (.send command)) = s := by
  rw [step, receive, Control.send_refused other]

-- What holds at every time. The last field is about a command that lies there while the thread is in a pause: it was
-- accepted in this pause, and it is none of those taken so far.
structure Sound (s : Steered) : Prop where
  shown : s.control.status = .paused ↔ s.control.pause.isSome = true
  ended : s.control.outcome.isSome = true ↔ s.control.status.isTerminal = true
  past : s.control.status.isTerminal = true ↔ s.place = .past
  held : s.control.status = .paused → s.place = .pausing
  numbered : s.accepted.Pairwise fun later earlier => earlier.1 < later.1
  bounded : ∀ entry ∈ s.accepted, entry.1 ≤ s.pauses
  unanswered : s.control.status = .paused → ∀ entry ∈ s.accepted, entry.1 < s.pauses
  used : s.taken.Sublist s.accepted
  waiting : s.place = .pausing → ∀ command, s.control.command = some command →
    s.control.status = .running ∧ ∃ earlier, s.accepted = (s.pauses, command) :: earlier ∧ s.taken.Sublist earlier

theorem sound_empty : Sound {} where
  shown := by decide
  ended := by decide
  past := by decide
  held := by decide
  numbered := .nil
  bounded := by simp
  unanswered := by simp
  used := .slnil
  waiting := by simp

section

variable {s : Steered} (sound : Sound s)

include sound

theorem unfinished_pending (live : s.place ≠ .past) : s.control.outcome.isSome = false := by
  rw [← Bool.not_eq_true, sound.ended, sound.past]
  exact live

theorem sound_working (control : Control) (running : control.status = .running) (hidden : control.pause = none)
    (pending : control.outcome.isSome = false) (taken : List (Nat × Command)) (used : taken.Sublist s.accepted) :
    Sound { s with control, place := .working, taken } := { sound with
  shown := by simp [running, hidden]
  ended := by simp [running, pending, Status.isTerminal]
  past := by simp [running, Status.isTerminal]
  held := by simp [running]
  unanswered := by simp [running]
  used
  waiting := by simp }

theorem sound_pause (p : Pause) (working : s.place = .working) :
    Sound { s with control := s.control.enterPause p, place := .pausing, pauses := s.pauses + 1 } := { sound with
  shown := by simp [Control.enterPause]
  ended := by
    have pending := unfinished_pending sound (by rw [working]; decide)
    simpa [Control.enterPause, Status.isTerminal] using pending
  past := by simp [Control.enterPause, Status.isTerminal]
  held := fun _ => rfl
  bounded := fun entry mem => Nat.le_succ_of_le (sound.bounded entry mem)
  unanswered := fun _ entry mem => Nat.lt_succ_of_le (sound.bounded entry mem)
  waiting := fun _ command lies => by cases lies }

theorem sound_look (pausing : s.place = .pausing) : Sound s.look := by
  have pending := unfinished_pending sound (by rw [pausing]; decide)
  unfold look
  split
  · exact sound_working sound s.control.haltInPause rfl rfl pending s.taken sound.used
  · split
    · exact sound
    · rename_i command lies
      obtain ⟨running, earlier, accepted, used⟩ := sound.waiting pausing command lies
      have hidden : s.control.pause = none := by
        rw [← Option.not_isSome_iff_eq_none, ← sound.shown, running]
        decide
      have fresh : ((s.pauses, command) :: s.taken).Sublist s.accepted := accepted ▸ used.cons_cons _
      exact sound_working sound s.control.dropCommand running hidden pending _ fresh

theorem sound_finish (o : Outcome) : Sound { s with control := s.control.finish o, place := .past } := { sound with
  shown := ⟨fun paused => absurd paused (ended_not_paused o), fun shown => absurd shown Bool.false_ne_true⟩
  ended := ⟨fun _ => ended_terminal o, fun _ => rfl⟩
  past := ⟨fun _ => rfl, fun _ => ended_terminal o⟩
  held := fun paused => absurd paused (ended_not_paused o)
  unanswered := fun paused => absurd paused (ended_not_paused o)
  waiting := fun pausing => by cases pausing }

theorem sound_stop : Sound { s with control := s.control.forceStop } := { sound with }

theorem sound_send (command : Command) : Sound (s.step (.call (.send command))) := by
  by_cases paused : s.control.status = .paused
  · have pausing := sound.held paused
    have pending := unfinished_pending sound (by rw [pausing]; decide)
    rw [send_step paused]
    exact {
      shown := by simp
      ended := by simpa [Status.isTerminal] using pending
      past := by simp [Status.isTerminal, pausing]
      held := fun _ => pausing
      numbered := .cons (sound.unanswered paused) sound.numbered
      bounded := by
        rintro entry (_ | ⟨_, mem⟩)
        · exact Nat.le_refl _
        · exact sound.bounded entry mem
      unanswered := fun shown => by cases shown
      used := sound.used.cons _
      waiting := by
        intro _ given lies
        cases lies
        exact ⟨rfl, s.accepted, rfl, sound.used⟩ }
  · rw [refused_step paused]
    exact sound

theorem sound_step (m : Move) : Sound (s.step m) := by
  cases m with
  | start =>
    rw [step]
    split
    · rename_i ready
      have pending := unfinished_pending sound (by rw [ready]; decide)
      have hidden : s.control.pause = none := by
        rw [← Option.not_isSome_iff_eq_none, ← sound.shown]
        intro paused
        exact absurd (ready.symm.trans (sound.held paused)) (by decide)
      exact sound_working sound s.control.start rfl hidden pending s.taken sound.used
    · exact sound
  | pause p =>
    rw [step]
    split
    · exact sound_pause sound p ‹_›
    · exact sound
  | look =>
    rw [step]
    split
    · exact sound_look sound ‹_›
    · exact sound
  | finish o =>
    rw [step]
    split
    · exact sound_finish sound o
    · exact sound
  | call call =>
    cases call with
    | send command => exact sound_send sound command
    | stop => exact sound_stop sound

theorem over_step (past : s.place = .past) (m : Move) :
    (s.step m).place = .past ∧ (s.step m).control.status = s.control.status ∧
      (s.step m).control.outcome = s.control.outcome := by
  have terminal := sound.past.mpr past
  have other : s.control.status ≠ .paused := fun paused => by
    rw [paused] at terminal
    cases terminal
  cases m with
  | call call =>
    cases call with
    | send command =>
      rw [refused_step other]
      exact ⟨past, rfl, rfl⟩
    | stop => exact ⟨past, rfl, rfl⟩
  | _ =>
    rw [step, if_neg (by rw [past]; decide)]
    exact ⟨past, rfl, rfl⟩

end

theorem sound_run (moves : List Move) : Sound (run moves) := by
  induction moves using List.reverseRecOn with
  | nil => exact sound_empty
  | append_singleton moves m ih =>
    rw [run_snoc]
    exact sound_step ih m

theorem over_run (moves more : List Move) (past : (run moves).place = .past) :
    (run (moves ++ more)).place = .past ∧ (run (moves ++ more)).control.status = (run moves).control.status ∧
      (run (moves ++ more)).control.outcome = (run moves).control.outcome := by
  induction more using List.reverseRecOn with
  | nil =>
    rw [List.append_nil]
    exact ⟨past, rfl, rfl⟩
  | append_singleton more m ih =>
    rw [← List.append_assoc, run_snoc]
    obtain ⟨place, status, outcome⟩ := over_step (sound_run (moves ++ more)) ih.1 m
    exact ⟨place, status.trans ih.2.1, outcome.trans ih.2.2⟩

theorem steering_is_sound (moves : List Move) :
    let s := run moves
    (s.control.status = .paused ↔ s.control.pause.isSome = true) ∧
      (s.control.outcome.isSome = true ↔ s.control.status.isTerminal = true) ∧
      (s.control.status.isTerminal = true → ∀ more,
        (run (moves ++ more)).control.status = s.control.status ∧
          (run (moves ++ more)).control.outcome = s.control.outcome) ∧
      (∀ command,
        ((∃ sent, s.control.send command = .ok sent) ↔ s.control.status = .paused) ∧
          (s.control.status = .paused → run (moves ++ [.call (.send command)]) =
            { s with
              control := { s.control with command := some command, status := .running, pause := none }
              accepted := (s.pauses, command) :: s.accepted }) ∧
          (s.control.status ≠ .paused → run (moves ++ [.call (.send command)]) = s)) ∧
      s.accepted.Pairwise (fun later earlier => earlier.1 < later.1) ∧
      (∀ entry ∈ s.accepted, entry.1 ≤ s.pauses) ∧
      s.taken.Sublist s.accepted := by
  have sound := sound_run moves
  refine ⟨sound.shown, sound.ended, fun terminal more => ?_, fun command => ⟨Control.sent_iff command, ?_, ?_⟩,
    sound.numbered, sound.bounded, sound.used⟩
  · exact (over_run moves more (sound.past.mp terminal)).2
  · intro paused
    rw [run_snoc, send_step paused]
  · intro other
    rw [run_snoc, refused_step other]

-- Two debuggers answer the first pause, and the one who comes second is refused. In the second pause a stop overtakes the
-- command that was accepted, and no later pause takes it.
def overtaken : List Move :=
  [.start, .pause default, .call (.send .next), .call (.send .continue), .look, .pause default, .call (.send .continue),
    .call .stop, .look, .pause default, .look, .call (.send .next), .finish .cancelled]

theorem overtaken_command_is_lost :
    (run overtaken).accepted = [(2, .continue), (1, .next)] ∧ (run overtaken).taken = [(1, .next)] ∧
      (run overtaken).pauses = 3 ∧ ∀ more, (run (overtaken ++ more)).control.status = .cancelled := by
  have status : (run overtaken).control.status = .cancelled := by decide +kernel
  refine ⟨by decide +kernel, by decide +kernel, by decide +kernel, fun more => ?_⟩
  rw [((steering_is_sound overtaken).2.2.1 (by rw [status]; rfl) more).1, status]

end Steered

end Flowstep.Run
