import Flowstep.Proofs.RequestSteps

/-!
No id stays in the table: not that of a request which has returned, and after the end of the
connection none at all but for requests that are about to take theirs out.
-/
namespace Flowstep.Wire

def View.Barred (v : View) : Prop :=
  v.closed = true ∧
    match v.stage with
    | .fresh | .checked | .registered | .refused => True
    | .done r => r = .error .closed ∨ r = .error .cancelled
    | _ => False

def View.Cleared (v : View) : Prop :=
  v.closed = true ∧ (v.listed ≠ 0 → v.stage = .registered ∨ v.stage = .refused)

namespace View

variable {id : String} {v w : View}

-- A request that registers late sees the flag: the second look is what `confirm` cannot get past.
theorem barred_next (next : Next id v w) (barred : v.Barred) : w.Barred := by
  obtain ⟨closed, stage⟩ := barred
  cases next with
  | turn_away | withdraw => exact ⟨closed, .inl rfl⟩
  | call_off => exact ⟨closed, .inr rfl⟩
  | check | register | refuse => exact ⟨closed, trivial⟩
  | confirm _ opened =>
    rw [opened] at closed
    cases closed
  | post confirmed | fail confirmed => simp only [confirmed] at stage
  | collect e others listening =>
    obtain waiting | ⟨fault, outrun⟩ := listening
    · simp only [waiting] at stage
    · simp only [outrun] at stage
  | lose waiting | give_up fault waiting => simp only [waiting] at stage
  | leave fault leaving | fall_behind fault leaving => simp only [leaving] at stage
  | mark fault marking => simp only [marking] at stage
  | orphan fault outrun => simp only [outrun] at stage
  | resign fault orphaned => simp only [orphaned] at stage
  | shut => exact ⟨rfl, stage⟩
  | rest | claim | hand | drain | release => exact ⟨closed, stage⟩

theorem cleared_next (next : Next id v w) (cleared : v.Cleared) : w.Cleared := by
  obtain ⟨closed, listed⟩ := cleared
  cases next with
  | register => exact ⟨closed, fun _ => .inl rfl⟩
  | refuse => exact ⟨closed, fun _ => .inr rfl⟩
  | confirm _ opened =>
    rw [opened] at closed
    cases closed
  | withdraw | leave | claim | drain => exact ⟨closed, fun count => absurd rfl count⟩
  | shut => exact ⟨rfl, listed⟩
  | rest | hand | release => exact ⟨closed, listed⟩
  | turn_away stage | call_off stage | check stage | post stage | fail stage | lose stage
  | give_up _ stage | mark _ stage | fall_behind _ stage | orphan _ stage | resign _ stage =>
    refine ⟨closed, fun count => ?_⟩
    rw [stage] at listed
    obtain registered | refused := listed count
    · cases registered
    · cases refused
  | collect e others listening =>
    refine ⟨closed, fun count => ?_⟩
    obtain registered | refused := listed count
    · rw [registered] at listening
      obtain waiting | ⟨fault, outrun⟩ := listening
      · cases waiting
      · cases outrun
    · rw [refused] at listening
      obtain waiting | ⟨fault, outrun⟩ := listening
      · cases waiting
      · cases outrun

end View

namespace Traffic

def Withdraws (t : Traffic) (place : Nat) : Prop :=
  ∀ k, t.tickets[place]? = some k → k.id ∈ t.link.pending → ∀ first second,
    let u := (t.step (.proceed place first)).step (.proceed place second)
    k.id ∉ u.link.pending ∧ u.resultAt? place = some (.error .closed)

variable {t : Traffic} {place : Nat} {k : Ticket}

theorem withdrawn (here : t.tickets[place]? = some k) (refused : k.stage = .refused)
    (cancelled : Bool) :
    (t.proceed place cancelled).tickets[place]? = some { k with stage := .done (.error .closed) } ∧
      k.id ∉ (t.proceed place cancelled).link.pending := by
  rw [proceed_ticket here, proceed_link here]
  simp [Ticket.advance, refused, Link.forget]

theorem withdraws (here : t.tickets[place]? = some k) (closed : t.link.closed = true)
    (stage : k.id ∈ t.link.pending → k.stage = .registered ∨ k.stage = .refused) :
    t.Withdraws place := by
  intro k' here' listed first second
  obtain rfl : k = k' := Option.some.inj (here.symm.trans here')
  simp only [step]
  obtain registered | refused := stage listed
  · have moved : (t.proceed place first).tickets[place]? = some { k with stage := .refused } := by
      rw [proceed_ticket here]
      simp [Ticket.advance, registered, closed]
    obtain ⟨ended, gone⟩ := withdrawn moved rfl second
    exact ⟨gone, by rw [resultAt?, ended]; rfl⟩
  · obtain ⟨ended, gone⟩ := withdrawn here refused first
    rw [resultAt?, proceed_link ended, proceed_ticket ended]
    exact ⟨gone, rfl⟩

variable {sender : String}

theorem listed_known (reached : Leads (start sender) t) {id : String} (listed : id ∈ t.link.pending) :
    ∃ (place : Nat) (k : Ticket), t.tickets[place]? = some k ∧ k.id = id := by
  by_contra unknown
  have stranger : id ∉ t.ids := by
    intro known
    obtain ⟨k, member, same⟩ := List.mem_map.mp known
    obtain ⟨place, here⟩ := List.getElem?_of_mem member
    exact unknown ⟨place, k, here, same⟩
  obtain ⟨message, rfl⟩ : ∃ message : Envelope, message.id = id :=
    ⟨{ channel := "", key := "", id, sender := "" }, rfl⟩
  have copies := strangers_absent reached stranger
  have count : (t.link.view { message }).listed ≠ 0 := (listed_iff _ _).mpr listed
  simp only [View.copies] at copies
  omega

theorem returned_unlisted (reached : Leads (start sender) t) (member : k ∈ t.tickets) (returned : k.result?.isSome = true) :
    k.id ∉ t.link.pending := by
  obtain ⟨place, here⟩ := List.getElem?_of_mem member
  rw [← not_iff_not.mpr (listed_iff _ _), not_not]
  apply (requests_sound reached here).unlisted
  cases stage : k.stage with
  | done result => simp [stage, Stage.isUnlisted]
  | _ => simp [Ticket.result?, stage] at returned

theorem barred_withdraws {u : Traffic} (reached : Leads (start sender) t) (leads : Leads t u) (closed : t.link.closed = true)
    (here : t.tickets[place]? = some k) (new : k.stage.isNew = true) :
    u.Withdraws place ∧
      ∀ r, u.resultAt? place = some r → r = .error .closed ∨ r = .error .cancelled := by
  have before : (t.link.view k).Barred := by
    refine ⟨closed, ?_⟩
    cases stage : k.stage <;> simp [stage, Stage.isNew] at new ⊢
  obtain ⟨k', there, _, closed', barred⟩ :=
    leads_keeps leads (ids_reached reached) here (fun _ _ => View.barred_next) before
  have sound := requests_sound (reached.trans leads) there
  constructor
  · apply withdraws there closed'
    intro listed
    have count := (listed_iff u.link k').mpr listed
    cases stage : k'.stage with
    | registered => exact .inl rfl
    | refused => exact .inr rfl
    | fresh | checked | done result =>
      exact absurd (sound.unlisted (by simp [stage, Stage.isUnlisted])) count
    | _ => simp [stage] at barred
  · intro r result
    rw [resultAt?, there, Option.bind_some] at result
    cases stage : k'.stage with
    | done r' =>
      simp only [Ticket.result?, stage, Option.some.injEq] at result
      simpa [stage, result] using barred
    | _ => simp [Ticket.result?, stage] at result

theorem drained_withdraws {u : Traffic} (reached : Leads (start sender) t) (closed : t.link.closed = true)
    (leads : Leads (t.step .drain) u) (here : u.tickets[place]? = some k) : u.Withdraws place := by
  have drained : Leads (start sender) (t.step .drain) := .step reached .drain trivial
  have cleared : (u.link.view k).Cleared := by
    refine leads_all drained leads (fun _ v => v.Cleared)
      (fun _ _ _ => View.cleared_next) ?_ ?_ here
    · intro id v stage copies shut
      refine ⟨shut (step_closed .drain closed), fun count => ?_⟩
      simp only [View.copies] at copies
      omega
    · intro place k _
      refine ⟨step_closed .drain closed, fun count => ?_⟩
      simp [step, closed, Link.view, Link.drain] at count
  exact withdraws here cleared.1 fun listed => cleared.2 ((listed_iff _ _).mpr listed)

theorem no_stale_entries {sender : String} {t : Traffic} (reached : Leads (start sender) t) :
    (∀ k ∈ t.tickets, k.result?.isSome = true → k.id ∉ t.link.pending) ∧
      (t.link.closed = true → ∀ place k, t.tickets[place]? = some k → k.stage.isNew = true →
        ∀ u, Leads t u → u.Withdraws place ∧
          ∀ r, u.resultAt? place = some r → r = .error .closed ∨ r = .error .cancelled) ∧
      (t.link.closed = true → ∀ u, Leads (t.step .drain) u → ∀ id ∈ u.link.pending,
        ∃ (place : Nat) (k : Ticket),
          u.tickets[place]? = some k ∧ k.id = id ∧ u.Withdraws place) := by
  refine ⟨fun k => returned_unlisted reached, ?_, ?_⟩
  · intro closed place k here new u leads
    exact barred_withdraws reached leads closed here new
  · intro closed u leads id listed
    have later : Leads (start sender) u :=
      (Leads.step reached .drain trivial).trans leads
    obtain ⟨place, k, here, same⟩ := listed_known later listed
    exact ⟨place, k, here, same, drained_withdraws reached closed leads here⟩

-- The race: the connection ends between the first look at it and the registration.
theorem no_stale_entries_of_race :
    let request : Envelope := { channel := "atomic", key := "Slow.op", id := "r", sender := "engine" }
    let ended := (start "engine").run [.ask request, .proceed 0 false, .shut]
    let late := ended.run [.drain, .proceed 0 false]
    late.link.pending = ["r"] ∧ late.Withdraws 0 := by
  intro request ended late
  have asked : Leads (start "engine") ((start "engine").step (.ask request)) :=
    .step .refl _ (by simp [Admits, ids, start])
  have reached : Leads (start "engine") ended :=
    .step (.step asked (.proceed 0 false) trivial) .shut trivial
  have leads : Leads ended late := .step (.step .refl .drain trivial) (.proceed 0 false) trivial
  exact ⟨rfl, ((no_stale_entries reached).2.1 rfl 0 ⟨request, .checked⟩ rfl rfl late leads).1⟩

end Traffic

end Flowstep.Wire
