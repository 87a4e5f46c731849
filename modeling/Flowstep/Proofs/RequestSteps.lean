import Flowstep.Wire.Traffic
import Mathlib.Data.List.Count
import Mathlib.Logic.Relation

/-!
What a step on a connection can do to one request: every interleaving is, seen from one request, a
walk along the cases of `View.Next`.
-/
namespace Flowstep.Wire

structure View where
  stage : Stage
  listed : Nat
  drained : Nat
  claimed : Option Envelope
  handed : List Envelope
  closed : Bool

namespace View

-- In how many places something may still become, or is, the reply.
def copies (v : View) : Nat :=
  v.listed + v.drained + v.claimed.toList.length + v.handed.length

def Gone (v : View) : Prop := v.handed = [] ∧ v.listed = 0 ∧ v.drained = 0 ∧ v.claimed = none

-- All that a single step can do to the request with an id.
inductive Next (id : String) : View → View → Prop where
  | rest (v : View) : Next id v v
  | turn_away (v : View) (fresh : v.stage = .fresh) (closed : v.closed = true) :
      Next id v { v with stage := .done (.error .closed) }
  | call_off (v : View) (fresh : v.stage = .fresh) :
      Next id v { v with stage := .done (.error .cancelled) }
  | check (v : View) (fresh : v.stage = .fresh) (opened : v.closed = false) :
      Next id v { v with stage := .checked }
  | register (v : View) (checked : v.stage = .checked) :
      Next id v { v with stage := .registered, listed := v.listed + 1 }
  | refuse (v : View) (registered : v.stage = .registered) (closed : v.closed = true) :
      Next id v { v with stage := .refused }
  | confirm (v : View) (registered : v.stage = .registered) (opened : v.closed = false) :
      Next id v { v with stage := .confirmed }
  | post (v : View) (confirmed : v.stage = .confirmed) : Next id v { v with stage := .waiting }
  | fail (v : View) (confirmed : v.stage = .confirmed) : Next id v { v with stage := .refused }
  | withdraw (v : View) (refused : v.stage = .refused) :
      Next id v { v with stage := .done (.error .closed), listed := 0 }
  | collect (v : View) (e : Envelope) (others : List Envelope)
      (listening : v.stage = .waiting ∨ ∃ fault, v.stage = .outrun fault)
      (handed : v.handed = e :: others) :
      Next id v { v with stage := .done (.ok e), handed := others }
  | lose (v : View) (waiting : v.stage = .waiting) (gone : v.Gone) :
      Next id v { v with stage := .done (.error .closed) }
  | give_up (v : View) (fault : Fault) (waiting : v.stage = .waiting) :
      Next id v { v with stage := .leaving fault }
  | leave (v : View) (fault : Fault) (leaving : v.stage = .leaving fault) (listed : v.listed ≠ 0) :
      Next id v { v with stage := .marking fault, listed := 0 }
  | mark (v : View) (fault : Fault) (marking : v.stage = .marking fault) :
      Next id v { v with stage := .done (.error fault) }
  | fall_behind (v : View) (fault : Fault) (leaving : v.stage = .leaving fault)
      (unlisted : v.listed = 0) : Next id v { v with stage := .outrun fault }
  | orphan (v : View) (fault : Fault) (outrun : v.stage = .outrun fault) (gone : v.Gone) :
      Next id v { v with stage := .orphaned fault }
  | resign (v : View) (fault : Fault) (orphaned : v.stage = .orphaned fault) :
      Next id v { v with stage := .done (.error (if v.closed then .closed else fault)) }
  | claim (v : View) (e : Envelope) (own : e.id = id) (listed : v.listed ≠ 0)
      (idle : v.claimed = none) : Next id v { v with listed := 0, claimed := some e }
  | hand (v : View) (e : Envelope) (claimed : v.claimed = some e) :
      Next id v { v with claimed := none, handed := e :: v.handed }
  | shut (v : View) : Next id v { v with closed := true }
  | drain (v : View) (closed : v.closed = true) :
      Next id v { v with drained := v.listed + v.drained, listed := 0 }
  | release (v : View) : Next id v { v with drained := 0 }

theorem closed_next {id : String} {v w : View} (next : Next id v w) (closed : v.closed = true) :
    w.closed = true := by
  cases next with
  | shut => rfl
  | _ => exact closed

end View

def Link.view (l : Link) (k : Ticket) : View where
  stage := k.stage
  listed := l.pending.count k.id
  drained := l.drained.count k.id
  claimed := l.reader.reply? k.id
  handed := (l.handed.filter (·.1 == k.id)).map (·.2)
  closed := l.closed

theorem lookup_handed (id : String) (handed : List (String × Envelope)) :
    handed.lookup id = ((handed.filter (·.1 == id)).map (·.2)).head? := by
  induction handed with
  | nil => rfl
  | cons first others ih =>
    obtain ⟨key, e⟩ := first
    by_cases same : key = id
    · simp [same]
    · have other : (id == key) = false := by simp [Ne.symm same]
      simp [List.lookup_cons, other, same, ih]

theorem collected_handed (id : String) (handed : List (String × Envelope)) :
    ((handed.eraseP fun p => id == p.1).filter (·.1 == id)).map (·.2) =
      ((handed.filter (·.1 == id)).map (·.2)).tail := by
  induction handed with
  | nil => rfl
  | cons first others ih =>
    obtain ⟨key, e⟩ := first
    by_cases same : key = id
    · simp [same]
    · have other : (id == key) = false := by simp [Ne.symm same]
      simp [other, same, ih]

variable {id : String}

theorem collected_other {other : String} (apart : id ≠ other) (handed : List (String × Envelope)) :
    (handed.eraseP fun p => id == p.1).filter (·.1 == other) =
      handed.filter (·.1 == other) := by
  induction handed with
  | nil => rfl
  | cons first others ih =>
    obtain ⟨key, e⟩ := first
    by_cases same : key = id
    · simp [same, apart]
    · have distinct : (id == key) = false := by simp [Ne.symm same]
      simp [distinct, List.filter_cons, ih]

theorem count_filter_ne (ids : List String) (id other : String) :
    (ids.filter (· != id)).count other = if id = other then 0 else ids.count other := by
  by_cases same : id = other
  · subst same
    simp [List.count_eq_zero]
  · rw [if_neg same, List.count_filter (by simp [Ne.symm same])]

namespace Link

variable (l : Link) (k : Ticket) (id : String)

@[simp] theorem view_stage : (l.view k).stage = k.stage := rfl

@[simp] theorem view_closed : (l.view k).closed = l.closed := rfl

theorem view_register : (l.register k.id).view k = { l.view k with listed := (l.view k).listed + 1 } := by
  simp [view, register]

theorem view_forget : (l.forget k.id).view k = { l.view k with listed := 0 } := by
  simp [view, forget, count_filter_ne]

theorem view_collect : (l.collect k.id).view k = { l.view k with handed := (l.view k).handed.tail } := by
  simp [view, collect, collected_handed]

theorem view_expire : (l.expire id).view k = l.view k := by
  simp [view, expire]

variable {l k id}

theorem view_register_other (apart : id ≠ k.id) : (l.register id).view k = l.view k := by
  simp [view, register, apart]

theorem view_forget_other (apart : id ≠ k.id) : (l.forget id).view k = l.view k := by
  simp [view, forget, count_filter_ne, apart]

theorem view_collect_other (apart : id ≠ k.id) : (l.collect id).view k = l.view k := by
  simp [view, collect, collected_other apart]

variable {e : Envelope}

theorem view_post {l' : Link} (posted : l.post e = .ok l') : l'.view k = l.view k := by
  unfold post at posted
  split at posted
  · cases posted
    rfl
  · cases posted

theorem listen_reply (heard : l.listen k.id = .reply e) :
    (l.view k).handed = e :: (l.view k).handed.tail := by
  have first : (l.view k).handed.head? = some e := by
    unfold listen at heard
    split at heard
    · next found =>
      cases heard
      exact (lookup_handed k.id l.handed).symm.trans found
    · split at heard <;> cases heard
  obtain ⟨others, split⟩ := List.head?_eq_some_iff.mp first
  rw [split, List.tail_cons]

theorem listen_gone (heard : l.listen k.id = .gone) : (l.view k).Gone := by
  unfold listen at heard
  split at heard
  · cases heard
  · next absent =>
    rw [lookup_handed] at absent
    split at heard
    · cases heard
    · next unheld =>
      simp only [holds, Bool.or_eq_true, List.contains_iff_mem, Option.isSome_iff_ne_none, not_or, not_not] at unheld
      exact ⟨List.head?_eq_none_iff.mp absent, List.count_eq_zero.mpr unheld.1.1,
        List.count_eq_zero.mpr unheld.1.2, unheld.2⟩

theorem view_take_own (idle : l.reader = .idle) (own : e.id = k.id) (listed : k.id ∈ l.pending) :
    (l.take e).view k = { l.view k with listed := 0, claimed := some e } := by
  simp [take, idle, own, listed, view, forget, count_filter_ne, Reading.reply?]

theorem view_take (e : Envelope) : View.Next k.id (l.view k) ((l.take e).view k) := by
  cases reading : l.reader with
  | idle =>
    by_cases own : e.id = k.id ∧ k.id ∈ l.pending
    · rw [view_take_own reading own.1 own.2]
      refine .claim _ e own.1 ?_ ?_
      · simpa [view, List.count_eq_zero] using own.2
      · simp [view, reading, Reading.reply?]
    · have same : (l.take e).view k = l.view k := by
        simp only [take, reading]
        split
        · next listed =>
          have other : e.id ≠ k.id := by
            intro same
            rw [same, List.contains_iff_mem] at listed
            exact own ⟨same, listed⟩
          simp [view, forget, count_filter_ne, other, reading, Reading.reply?]
        · simp [view, reading, Reading.reply?]
      rw [same]
      exact .rest _
  | _ =>
    simp only [take, reading]
    exact .rest _

theorem view_deliver_claimed (claimed : (l.view k).claimed = some e) :
    l.deliver.view k = { l.view k with claimed := none, handed := e :: (l.view k).handed } := by
  cases reading : l.reader with
  | claimed held =>
    obtain ⟨own, rfl⟩ : held.id = k.id ∧ held = e := by
      simpa [view, reading, Reading.reply?] using claimed
    simp [deliver, reading, view, own, Reading.reply?]
  | _ => simp [view, reading, Reading.reply?] at claimed

theorem view_deliver_unclaimed (unclaimed : (l.view k).claimed = none) :
    l.deliver.view k = l.view k := by
  cases reading : l.reader with
  | idle => simp [deliver, reading]
  | claimed held =>
    have other : held.id ≠ k.id := by simpa [view, reading, Reading.reply?] using unclaimed
    simp [deliver, reading, view, other, Reading.reply?]
  | unclaimed held =>
    simp only [deliver, reading]
    split <;> simp [view, reading, Reading.reply?]
  | foreign held => simp [deliver, reading, view, Reading.reply?]

theorem view_deliver : View.Next k.id (l.view k) (l.deliver.view k) := by
  cases claimed : (l.view k).claimed with
  | some e =>
    rw [view_deliver_claimed claimed]
    exact .hand _ e claimed
  | none =>
    rw [view_deliver_unclaimed claimed]
    exact .rest _

theorem view_drain (closed : l.closed = true) : View.Next k.id (l.view k) (l.drain.view k) := by
  have after : View.Next k.id _ _ := .drain (l.view k) closed
  simpa [view, drain] using after

theorem view_release : View.Next k.id (l.view k) ((l.release id).view k) := by
  by_cases own : id = k.id
  · have after : View.Next k.id _ _ := .release (l.view k)
    simpa [view, release, count_filter_ne, own] using after
  · have after : View.Next k.id (l.view k) (l.view k) := .rest _
    simpa [view, release, count_filter_ne, own] using after

end Link

variable {k : Ticket}

theorem Ticket.result_iff {r : Except Fault Envelope} :
    k.result? = some r ↔ k.stage = .done r := by
  unfold result?
  split
  · next stage => simp [stage]
  · next other =>
    constructor
    · intro none
      cases none
    · intro done
      exact absurd done (other r)

theorem Link.view_reached (l : Link) (k : Ticket) (stage : Stage) :
    l.view { k with stage } = { l.view k with stage } := rfl

theorem Ticket.advance_next (cancelled : Bool) (l : Link) (k : Ticket) :
    View.Next k.id (l.view k) ((k.advance cancelled l).1.view (k.advance cancelled l).2) := by
  cases at_stage : k.stage with
  | fresh =>
    simp only [advance, at_stage]
    split
    · next closed => exact .turn_away _ at_stage closed
    · next opened =>
      split
      · exact .call_off _ at_stage
      · exact .check _ at_stage (by simpa using opened)
  | checked =>
    simp only [advance, at_stage, Link.view_reached, Link.view_register]
    exact .register _ at_stage
  | registered =>
    simp only [advance, at_stage]
    split
    · next closed => exact .refuse _ at_stage closed
    · next opened => exact .confirm _ at_stage (by simpa using opened)
  | confirmed =>
    simp only [advance, at_stage]
    split
    · next posted =>
      rw [Link.view_post posted]
      exact .post _ at_stage
    · exact .fail _ at_stage
  | refused =>
    simp only [advance, at_stage, Link.view_reached, Link.view_forget]
    exact .withdraw _ at_stage
  | waiting =>
    simp only [advance, at_stage]
    split
    · next heard =>
      simp only [Link.view_reached, Link.view_collect]
      exact .collect _ _ _ (.inl at_stage) (Link.listen_reply heard)
    · next heard => exact .lose _ at_stage (Link.listen_gone heard)
    · exact .rest _
  | leaving fault =>
    simp only [advance, at_stage]
    split
    · next listed =>
      simp only [Link.view_reached, Link.view_forget]
      have count : (l.view k).listed ≠ 0 := by
        simpa [Link.view, List.count_eq_zero] using listed
      exact .leave _ fault at_stage count
    · next unlisted =>
      have count : (l.view k).listed = 0 := by
        simpa [Link.view, List.count_eq_zero] using unlisted
      exact .fall_behind _ fault at_stage count
  | marking fault =>
    simp only [advance, at_stage, Link.view_expire]
    exact .mark _ fault at_stage
  | outrun fault =>
    simp only [advance, at_stage]
    split
    · next heard =>
      simp only [Link.view_reached, Link.view_collect]
      exact .collect _ _ _ (.inr ⟨fault, at_stage⟩) (Link.listen_reply heard)
    · next heard => exact .orphan _ fault at_stage (Link.listen_gone heard)
    · exact .rest _
  | orphaned fault =>
    simp only [advance, at_stage]
    exact .resign _ fault at_stage
  | done result =>
    simp only [advance, at_stage]
    exact .rest _

theorem Ticket.advance_other (cancelled : Bool) (l : Link) {other : Ticket} (apart : other.id ≠ k.id) :
    (other.advance cancelled l).1.view k = l.view k := by
  unfold advance
  split
  · split <;> [skip; split] <;> rfl
  · exact Link.view_register_other apart
  · rfl
  · split
    · next posted => exact Link.view_post posted
    · rfl
  · exact Link.view_forget_other apart
  · split
    · exact Link.view_collect_other apart
    · rfl
    · rfl
  · split
    · exact Link.view_forget_other apart
    · rfl
  · exact Link.view_expire _ _ _
  · split
    · exact Link.view_collect_other apart
    · rfl
    · rfl
  · rfl
  · rfl

theorem Ticket.advance_message {cancelled : Bool} {l : Link} :
    (k.advance cancelled l).2.message = k.message := by
  unfold advance
  split <;> (try split) <;> (try split) <;> rfl

theorem Ticket.give_up_next {l : Link} {fault : Fault} :
    View.Next k.id (l.view k) (l.view (k.giveUp fault)) := by
  unfold giveUp
  split
  · next waiting => exact .give_up _ fault waiting
  · exact .rest _

theorem Ticket.give_up_message {fault : Fault} :
    (k.giveUp fault).message = k.message := by
  unfold giveUp
  split <;> rfl

namespace Traffic

def ids (t : Traffic) : List String := t.tickets.map Ticket.id

def Admits (t : Traffic) : Move → Prop
  | .ask message => message.id ∉ t.ids
  | _ => True

inductive Leads (t : Traffic) : Traffic → Prop where
  | refl : Leads t t
  | step {u : Traffic} (before : Leads t u) (move : Move) (admitted : u.Admits move) :
      Leads t (u.step move)

theorem ids_proceed (t : Traffic) (place : Nat) (cancelled : Bool) :
    (t.proceed place cancelled).ids = t.ids := by
  unfold proceed
  split
  · rfl
  · next k found =>
    obtain ⟨within, rfl⟩ := List.getElem?_eq_some_iff.mp found
    have same : ((t.tickets[place].advance cancelled t.link).2).id = t.tickets[place].id :=
      congrArg Envelope.id (Ticket.advance_message)
    simp only [ids, List.map_set, same]
    rw [← List.getElem_map Ticket.id, List.set_getElem_self]
    simpa using within

theorem ids_give_up (tickets : List Ticket) (place : Nat) (fault : Fault) :
    (tickets.modify place (·.giveUp fault)).map Ticket.id = tickets.map Ticket.id := by
  apply List.ext_getElem?
  intro i
  simp only [List.getElem?_map, List.getElem?_modify]
  cases tickets[i]? with
  | none => rfl
  | some k =>
    by_cases here : place = i
    · simp [here, Ticket.id, Ticket.give_up_message]
    · simp [here]

theorem ids_step (t : Traffic) (move : Move) :
    (t.step move).ids = t.ids ++ match move with
      | .ask message => [message.id]
      | _ => [] := by
  cases move with
  | ask message => simp [step, ids, Ticket.id]
  | proceed place cancelled => simp [step, ids_proceed]
  | giveUp place fault => simp [step, ids, ids_give_up]
  | drain =>
    simp only [step, List.append_nil]
    split <;> rfl
  | _ => simp [step, ids]

variable {t u : Traffic}

theorem ids_distinct (leads : Leads t u) (distinct : t.ids.Nodup) : u.ids.Nodup := by
  induction leads with
  | refl => exact distinct
  | @step u before move admitted ih =>
    rw [ids_step]
    cases move with
    | ask message =>
      refine List.nodup_append.mpr ⟨ih, by simp, ?_⟩
      rintro id old _ new rfl
      rw [List.mem_singleton.mp new] at old
      exact admitted old
    | _ => simpa using ih

variable {k : Ticket}

theorem apart_of_places (distinct : t.ids.Nodup) {i j : Nat} {other : Ticket} (here : t.tickets[i]? = some k)
    (there : t.tickets[j]? = some other) (apart : j ≠ i) :
    other.id ≠ k.id := by
  intro same
  obtain ⟨i_within, rfl⟩ := List.getElem?_eq_some_iff.mp here
  obtain ⟨j_within, rfl⟩ := List.getElem?_eq_some_iff.mp there
  have equal : t.ids[j]? = t.ids[i]? := by simp [ids, i_within, j_within, same]
  exact apart ((List.getElem?_inj (by simpa [ids] using j_within) distinct).mp equal)

-- A step seen from a request that does not take it, listed here or not.
theorem step_link (move : Move)
    (other : ∀ place cancelled mover, move = .proceed place cancelled →
      t.tickets[place]? = some mover → mover.id ≠ k.id) :
    View.Next k.id (t.link.view k) ((t.step move).link.view k) := by
  cases move with
  | proceed place cancelled =>
    simp only [step, proceed]
    split
    · exact .rest _
    · next mover found =>
      rw [Ticket.advance_other cancelled t.link (other place cancelled mover rfl found)]
      exact .rest _
  | read e => exact Link.view_take e
  | deliver => exact Link.view_deliver
  | shut => exact .shut _
  | drain =>
    simp only [step]
    split
    · next closed => exact Link.view_drain closed
    · exact .rest _
  | release id => exact Link.view_release
  | _ => exact .rest _

theorem step_next (distinct : t.ids.Nodup) {place : Nat} (here : t.tickets[place]? = some k) (move : Move) :
    ∃ k', (t.step move).tickets[place]? = some k' ∧ k'.message = k.message ∧
      View.Next k.id (t.link.view k) ((t.step move).link.view k') := by
  have within := (List.getElem?_eq_some_iff.mp here).1
  by_cases own : ∃ cancelled, move = .proceed place cancelled
  · obtain ⟨cancelled, rfl⟩ := own
    refine ⟨(k.advance cancelled t.link).2, ?_, Ticket.advance_message, ?_⟩
    · simp only [step, proceed, here]
      exact List.getElem?_set_self within
    · simpa only [step, proceed, here] using k.advance_next cancelled t.link
  by_cases urged : ∃ fault, move = .giveUp place fault
  · obtain ⟨fault, rfl⟩ := urged
    refine ⟨k.giveUp fault, ?_, Ticket.give_up_message, Ticket.give_up_next⟩
    simp [step, here]
  have others : ∀ j cancelled mover, move = .proceed j cancelled →
      t.tickets[j]? = some mover → mover.id ≠ k.id := by
    intro j cancelled mover is_move there
    apply apart_of_places distinct here there
    rintro rfl
    exact own ⟨cancelled, is_move⟩
  refine ⟨k, ?_, rfl, step_link move others⟩
  cases move with
  | ask message =>
    simp only [step]
    rw [List.getElem?_append_left within]
    exact here
  | proceed j cancelled =>
    have apart : j ≠ place := fun same => own ⟨cancelled, by rw [same]⟩
    simp only [step, proceed]
    split
    · exact here
    · rw [List.getElem?_set_ne apart]
      exact here
  | giveUp j fault =>
    have apart : j ≠ place := fun same => urged ⟨fault, by rw [same]⟩
    simp [step, apart, here]
  | drain =>
    simp only [step]
    split <;> exact here
  | _ => exact here

theorem step_closed (move : Move) (closed : t.link.closed = true) :
    (t.step move).link.closed = true := by
  by_cases own : ∃ place cancelled k, move = .proceed place cancelled ∧ t.tickets[place]? = some k
  · obtain ⟨place, cancelled, k, rfl, here⟩ := own
    simp only [step, proceed, here]
    exact View.closed_next (k.advance_next cancelled t.link) closed
  · have next := step_link (k := ⟨default, .fresh⟩) move
      fun place cancelled k taken here => absurd ⟨place, cancelled, k, taken, here⟩ own
    exact View.closed_next next closed

theorem Leads.closed (leads : Leads t u) (closed : t.link.closed = true) :
    u.link.closed = true := by
  induction leads with
  | refl => exact closed
  | step _ move _ ih => exact step_closed move ih

theorem Leads.trans {w : Traffic} (before : Leads t u) (after : Leads u w) : Leads t w := by
  induction after with
  | refl => exact before
  | step _ move admitted ih => exact .step ih move admitted

-- A property that no case of `View.Next` spoils holds of a request for good.
theorem leads_keeps (leads : Leads t u) (distinct : t.ids.Nodup) {place : Nat} (here : t.tickets[place]? = some k)
    {holds : View → Prop} (kept : ∀ v w, View.Next k.id v w → holds v → holds w) (before : holds (t.link.view k)) :
    ∃ k', u.tickets[place]? = some k' ∧ k'.message = k.message ∧ holds (u.link.view k') := by
  induction leads with
  | refl => exact ⟨k, here, rfl, before⟩
  | step earlier move admitted ih =>
    obtain ⟨k', there, message, held⟩ := ih
    obtain ⟨k'', after, message', next⟩ := step_next (ids_distinct earlier distinct) there move
    have same : k'.id = k.id := congrArg Envelope.id message
    exact ⟨k'', after, message'.trans message, kept _ _ (same ▸ next) held⟩

/-! ## Where the id of a request can be -/

end Traffic

def Stage.isNew : Stage → Bool
  | .fresh => true
  | .checked => true
  | _ => false

def Stage.isUnlisted : Stage → Bool
  | .registered => false
  | .confirmed => false
  | .refused => false
  | .waiting => false
  | .leaving _ => false
  | _ => true

structure View.Sound (id : String) (v : View) : Prop where
  single : v.copies ≤ 1
  unused : v.stage.isNew = true → v.copies = 0
  unlisted : v.stage.isUnlisted = true → v.listed = 0
  claimed : ∀ e, v.claimed = some e → e.id = id
  handed : ∀ e ∈ v.handed, e.id = id
  result : ∀ e, v.stage = .done (.ok e) → e.id = id

variable {v w : View}

theorem View.copies_next (next : View.Next id v w) :
    w.copies ≤ v.copies ∨
      v.stage = .checked ∧ w.stage = .registered ∧ w.copies = v.copies + 1 := by
  cases next with
  | register checked =>
    right
    refine ⟨checked, rfl, ?_⟩
    simp only [copies]
    omega
  | collect e others _ handed =>
    simp [copies, handed]
  | claim e _ listed idle =>
    simp only [copies, idle, Option.toList_some, Option.toList_none, List.length_cons]
    omega
  | hand e claimed =>
    simp only [copies, claimed, Option.toList_some, Option.toList_none, List.length_cons]
    omega
  | _ =>
    left
    simp only [copies]
    omega

theorem View.unlisted_next (next : View.Next id v w) (sound : v.Sound id) :
    w.stage.isUnlisted = true → w.listed = 0 := by
  intro unlisted
  cases next with
  | turn_away fresh | call_off fresh | check fresh => exact sound.unlisted (by rw [fresh]; rfl)
  | collect e others _ handed =>
    have single := sound.single
    simp only [copies, handed, List.length_cons] at single
    change v.listed = 0
    omega
  | lose _ gone | orphan _ _ gone => exact gone.2.1
  | mark fault marking => exact sound.unlisted (by rw [marking]; rfl)
  | fall_behind _ _ absent => exact absent
  | resign fault orphaned => exact sound.unlisted (by rw [orphaned]; rfl)
  | withdraw | leave | claim | drain => rfl
  | rest | hand | shut | release => exact sound.unlisted unlisted
  | register | refuse | confirm | post | fail | give_up => cases unlisted

theorem View.new_next (next : View.Next id v w) (new : w.stage.isNew = true) : v.stage.isNew = true := by
  cases next with
  | check fresh => rw [fresh]; rfl
  | rest | claim | hand | shut | drain | release => exact new
  | _ => cases new

theorem View.sound_next (next : View.Next id v w) (sound : v.Sound id) :
    w.Sound id where
  single := by
    obtain fewer | ⟨checked, _, more⟩ := copies_next next
    · exact Nat.le_trans fewer sound.single
    · have none := sound.unused (by rw [checked]; rfl)
      omega
  unused new := by
    have before := sound.unused (new_next next new)
    obtain fewer | ⟨_, registered, _⟩ := copies_next next
    · omega
    · rw [registered] at new
      cases new
  unlisted := unlisted_next next sound
  claimed e inHand := by
    cases next with
    | claim _ own =>
      cases inHand
      exact own
    | hand => cases inHand
    | _ => exact sound.claimed e inHand
  handed e given := by
    cases next with
    | collect first others _ handed => exact sound.handed e (by rw [handed]; exact .tail _ given)
    | hand first claimed =>
      cases given with
      | head => exact sound.claimed _ claimed
      | tail _ given => exact sound.handed e given
    | _ => exact sound.handed e given
  result e done := by
    cases next with
    | collect first others _ handed =>
      cases done
      exact sound.handed e (by rw [handed]; exact .head _)
    | rest | claim | hand | shut | drain | release => exact sound.result e done
    | _ => cases done

namespace Traffic

variable {sender : String} {t : Traffic}

theorem ids_reached (reached : Leads (start sender) t) : t.ids.Nodup :=
  ids_distinct reached List.nodup_nil

theorem strangers_absent (reached : Leads (start sender) t) {message : Envelope}
    (stranger : message.id ∉ t.ids) : (t.link.view { message }).copies = 0 := by
  induction reached with
  | refl => rfl
  | @step u before move admitted ih =>
    rw [ids_step, List.mem_append, not_or] at stranger
    have none := ih stranger.1
    have next := step_link (k := { message }) move (by
      intro place cancelled mover _ found same
      have member : mover.id ∈ u.ids := List.mem_map_of_mem (List.mem_of_getElem? found)
      rw [same] at member
      exact stranger.1 member)
    obtain fewer | ⟨checked, _⟩ := View.copies_next next
    · omega
    · cases checked

variable {place : Nat} {k : Ticket}

theorem newcomer {move : Move} (absent : t.tickets[place]? = none) (here : (t.step move).tickets[place]? = some k) :
    ∃ message, move = .ask message ∧ k = { message } := by
  have outside := List.getElem?_eq_none_iff.mp absent
  have within := (List.getElem?_eq_some_iff.mp here).1
  have lengths := congrArg List.length (ids_step t move)
  simp only [ids, List.length_append, List.length_map] at lengths
  cases move with
  | ask message =>
    simp only [step] at here
    simp only [List.length_cons, List.length_nil] at lengths
    obtain rfl : place = t.tickets.length := by omega
    simpa using here.symm
  | _ =>
    simp only [List.length_nil] at lengths
    omega

def resultAt? (t : Traffic) (place : Nat) : Option (Except Fault Envelope) :=
  (t.tickets[place]?).bind Ticket.result?

theorem proceed_link (here : t.tickets[place]? = some k) (cancelled : Bool) :
    (t.proceed place cancelled).link = (k.advance cancelled t.link).1 := by
  simp only [proceed, here]

theorem proceed_ticket (here : t.tickets[place]? = some k) (cancelled : Bool) :
    (t.proceed place cancelled).tickets[place]? = some (k.advance cancelled t.link).2 := by
  simp only [proceed, here]
  exact List.getElem?_set_self (List.getElem?_eq_some_iff.mp here).1

theorem listed_iff (l : Link) (k : Ticket) : (l.view k).listed ≠ 0 ↔ k.id ∈ l.pending := by
  simp [Link.view, List.count_eq_zero]

-- The run lemma for all requests at once, those that come up on the way included.
theorem leads_all {u : Traffic} (reached : Leads (start sender) t) (leads : Leads t u) (holds : String → View → Prop)
    (kept : ∀ id v w, View.Next id v w → holds id v → holds id w)
    (fresh : ∀ id v, v.stage = .fresh → v.copies = 0 → (t.link.closed = true → v.closed = true) →
      holds id v) (before : ∀ (place : Nat) (k : Ticket), t.tickets[place]? = some k → holds k.id (t.link.view k))
    (here : u.tickets[place]? = some k) : holds k.id (u.link.view k) := by
  induction leads generalizing k with
  | refl => exact before place k here
  | @step u earlier move admitted ih =>
    have between := reached.trans earlier
    cases old : u.tickets[place]? with
    | some k' =>
      obtain ⟨k'', there, message, next⟩ := step_next (ids_reached between) old move
      obtain rfl : k'' = k := Option.some.inj (there.symm.trans here)
      have same : k''.id = k'.id := congrArg Envelope.id message
      rw [same]
      exact kept _ _ _ next (ih old)
    | none =>
      obtain ⟨message, rfl, rfl⟩ := newcomer old here
      exact fresh _ _ rfl (strangers_absent between admitted) earlier.closed

theorem requests_sound (reached : Leads (start sender) t) (here : t.tickets[place]? = some k) :
    (t.link.view k).Sound k.id := by
  refine leads_all .refl reached View.Sound (fun _ _ _ => View.sound_next) ?_ ?_ here
  · intro id v stage copies _
    simp only [View.copies, Nat.add_eq_zero_iff, List.length_eq_zero_iff, Option.toList_eq_nil_iff]
      at copies
    obtain ⟨⟨⟨listed, drained⟩, claimed⟩, handed⟩ := copies
    constructor <;> simp [View.copies, stage, listed, drained, claimed, handed]
  · intro place k none
    simp [start] at none

end Traffic

end Flowstep.Wire
