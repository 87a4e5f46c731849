import Flowstep.Proofs.RequestSteps
import Mathlib.Algebra.Order.Group.Multiset
import Mathlib.Tactic.Abel

/-!
Requests and replies meet exactly once: what was read is with one receiver, and a reply that the
reader has claimed for a request is what the request returns.
-/
namespace Flowstep.Wire

def Ticket.reply? (k : Ticket) : Option Envelope :=
  match k.stage with
  | .done (.ok e) => some e
  | _ => none

def Link.custody (l : Link) : Multiset Envelope :=
  ↑(l.handed.map Prod.snd) + ↑l.inbound + ↑l.late + ↑l.reader.message?.toList

def Traffic.replies (t : Traffic) : List Envelope := t.tickets.flatMap (·.reply?.toList)

def Traffic.custody (t : Traffic) : Multiset Envelope :=
  ↑t.replies + t.link.custody

variable {e : Envelope}

theorem lookup_taken_out {id : String} {handed : List (String × Envelope)} (found : handed.lookup id = some e) :
    handed.Perm ((id, e) :: handed.eraseP fun p => id == p.1) := by
  induction handed with
  | nil => cases found
  | cons first others ih =>
    obtain ⟨key, held⟩ := first
    by_cases same : id = key
    · subst same
      simp only [List.lookup_cons, beq_self_eq_true, Option.some.injEq] at found
      simp [found]
    · have other : (id == key) = false := by simp [same]
      simp only [List.lookup_cons, other] at found
      simp only [List.eraseP_cons, other]
      exact ((ih found).cons _).trans (.swap _ _ _)

namespace Link

variable (l : Link)

theorem custody_collect {id : String} (heard : l.listen id = .reply e) :
    {e} + (l.collect id).custody = l.custody := by
  have found : l.handed.lookup id = some e := by
    unfold listen at heard
    split at heard
    · next found => rw [found]; cases heard; rfl
    · split at heard <;> cases heard
  have handed : (↑(l.handed.map Prod.snd) : Multiset Envelope) =
      {e} + ↑((l.handed.eraseP fun p => id == p.1).map Prod.snd) :=
    Multiset.coe_eq_coe.mpr ((lookup_taken_out found).map _)
  simp only [custody, handed]
  abel

theorem custody_take (idle : l.reader = .idle) :
    (l.take e).custody = {e} + l.custody := by
  simp only [take, idle]
  split <;> simp [custody, forget, idle, Reading.message?, add_comm]

theorem custody_deliver : l.deliver.custody = l.custody := by
  have added (e : Envelope) (es : List Envelope) : (↑(e :: es) : Multiset Envelope) = {e} + ↑es :=
    (Multiset.singleton_add e es).symm
  cases reading : l.reader with
  | idle => simp [deliver, reading]
  | claimed e =>
    simp only [deliver, reading, custody, List.map_cons, added, Reading.message?,
      Option.toList_some]
    abel
  | unclaimed e =>
    simp only [deliver, reading]
    split
    · simp only [reading, custody, added, Reading.message?, Option.toList_some]
      abel
    · simp [reading, custody, Reading.message?]
  | foreign e =>
    simp only [deliver, reading, custody, added, Reading.message?, Option.toList_some]
    abel

end Link

theorem Ticket.advance_custody (cancelled : Bool) (l : Link) (k : Ticket) :
    (↑(k.advance cancelled l).2.reply?.toList : Multiset Envelope) +
        (k.advance cancelled l).1.custody = ↑k.reply?.toList + l.custody ∧
      (k.advance cancelled l).1.taken = l.taken := by
  cases stage : k.stage with
  | waiting =>
    simp only [advance, stage]
    split
    · next e heard =>
      refine ⟨?_, rfl⟩
      simpa [reply?, stage] using l.custody_collect heard
    · simp [reply?, stage]
    · simp
  | outrun fault =>
    simp only [advance, stage]
    split
    · next e heard =>
      refine ⟨?_, rfl⟩
      simpa [reply?, stage] using l.custody_collect heard
    · simp [reply?, stage]
    · simp
  | confirmed =>
    simp only [advance, stage]
    split
    · next posted =>
      unfold Link.post at posted
      split at posted
      · cases posted
        simp [reply?, stage, Link.custody]
      · cases posted
    · simp [reply?, stage]
  | fresh =>
    simp only [advance, stage]
    split
    · simp [reply?, stage]
    · split <;> simp [reply?, stage]
  | leaving fault =>
    simp only [advance, stage]
    split <;> simp [reply?, stage, Link.custody, Link.forget]
  | registered =>
    simp only [advance, stage]
    split <;> simp [reply?, stage]
  | _ => simp [advance, stage, reply?, Link.custody, Link.register, Link.forget, Link.expire]

namespace Traffic

variable {sender : String} {t : Traffic}

theorem custody_proceed (t : Traffic) (place : Nat) (cancelled : Bool) :
    (t.proceed place cancelled).custody = t.custody ∧
      (t.proceed place cancelled).link.taken = t.link.taken := by
  unfold proceed
  split
  · exact ⟨rfl, rfl⟩
  · next k here =>
    obtain ⟨within, rfl⟩ := List.getElem?_eq_some_iff.mp here
    obtain ⟨balance, taken⟩ := t.tickets[place].advance_custody cancelled t.link
    refine ⟨?_, taken⟩
    -- one request is replaced, and the others keep what they have
    have others (k : Ticket) :
        (↑((t.tickets.set place k).flatMap (·.reply?.toList)) : Multiset Envelope) =
          ↑k.reply?.toList + ↑((t.tickets.eraseIdx place).flatMap (·.reply?.toList)) :=
      Multiset.coe_eq_coe.mpr ((List.set_perm_cons_eraseIdx within k).flatMap_right _)
    have before := others t.tickets[place]
    rw [List.set_getElem_self] at before
    simp only [custody, replies, others, before]
    rw [add_right_comm, balance]
    exact add_right_comm _ _ _

theorem give_up_replies (tickets : List Ticket) (place : Nat) (fault : Fault) :
    (tickets.modify place (·.giveUp fault)).flatMap (·.reply?.toList) =
      tickets.flatMap (·.reply?.toList) := by
  have same (k : Ticket) : (k.giveUp fault).reply? = k.reply? := by
    unfold Ticket.giveUp
    split
    · next waiting => simp [Ticket.reply?, waiting]
    · rfl
  induction tickets generalizing place with
  | nil => simp
  | cons first others ih =>
    cases place with
    | zero => simp [same]
    | succ place => simp [ih]

theorem custody_step (move : Move) (balanced : t.custody = ↑t.link.taken) :
    (t.step move).custody = ↑(t.step move).link.taken := by
  cases move with
  | ask message =>
    simpa [step, custody, replies, Ticket.reply?] using balanced
  | proceed place cancelled =>
    obtain ⟨custody, taken⟩ := custody_proceed t place cancelled
    rw [step, custody, taken]
    exact balanced
  | giveUp place fault => simpa [step, custody, replies, give_up_replies] using balanced
  | read e =>
    simp only [step]
    cases reading : t.link.reader with
    | idle =>
      have taken : (t.link.take e).taken = e :: t.link.taken := by
        simp only [Link.take, reading]
        split <;> rfl
      rw [taken, ← Multiset.cons_coe, ← balanced]
      simp only [custody, t.link.custody_take reading]
      exact add_left_comm _ _ _
    | _ => simpa [Link.take, reading] using balanced
  | deliver =>
    have taken : t.link.deliver.taken = t.link.taken := by
      unfold Link.deliver
      split <;> (try split) <;> rfl
    simp only [step, custody, taken, Link.custody_deliver]
    exact balanced
  | drain =>
    simp only [step]
    split <;> exact balanced
  | _ => exact balanced

theorem custody_balanced (reached : Leads (start sender) t) : t.custody = ↑t.link.taken := by
  induction reached with
  | refl => rfl
  | step before move admitted ih => exact custody_step move ih

end Traffic

/-! ## A claimed reply is returned -/

def View.Assured (e : Envelope) (v : View) : Prop :=
  v.listed = 0 ∧ v.drained = 0 ∧
    (v.claimed = some e ∧ v.handed = [] ∨ v.claimed = none ∧ v.handed = [e])

def Stage.isPosted : Stage → Bool
  | .waiting | .leaving _ | .outrun _ => true
  | _ => false

def View.Promised (posted : Bool) (e : Envelope) (v : View) : Prop :=
  match v.stage with
  | .waiting | .leaving _ | .outrun _ => v.Assured e
  | .registered | .confirmed => posted = false ∧ v.Assured e
  | .refused => posted = false
  | .done r => r = .ok e ∨ posted = false ∧ r = .error .closed
  | _ => False

def Stage.isLosing : Stage → Bool
  | .registered | .confirmed | .refused | .waiting | .leaving _ | .outrun _ | .orphaned _ | .done (.error .closed) => true
  | _ => false

-- The entry of the request was removed because the connection is gone, so there will be no reply.
structure View.Lost (v : View) : Prop where
  closed : v.closed = true
  unlisted : v.listed = 0
  unclaimed : v.claimed = none
  unhanded : v.handed = []
  losing : v.stage.isLosing = true

namespace View

variable {id : String} {posted : Bool} {e : Envelope} {v w : View}

theorem assured_not_gone (assured : v.Assured e) : ¬ v.Gone := by
  rintro ⟨handed, _, _, claimed⟩
  obtain ⟨_, _, ⟨some, _⟩ | ⟨_, one⟩⟩ := assured
  · rw [claimed] at some
    cases some
  · rw [handed] at one
    cases one

theorem assured_handed (assured : v.Assured e) {held : Envelope} {others : List Envelope}
    (handed : v.handed = held :: others) : held = e := by
  obtain ⟨_, _, ⟨_, none⟩ | ⟨_, one⟩⟩ := assured
  · rw [none] at handed
    cases handed
  · rw [one] at handed
    exact (List.cons.inj handed).1.symm

theorem assured_hand (assured : v.Assured e) {held : Envelope} (claimed : v.claimed = some held) :
    Assured e { v with claimed := none, handed := held :: v.handed } := by
  obtain ⟨listed, drained, ⟨own, none⟩ | ⟨unclaimed, _⟩⟩ := assured
  · cases claimed.symm.trans own
    exact ⟨listed, drained, .inr ⟨rfl, by rw [none]⟩⟩
  · rw [unclaimed] at claimed
    cases claimed

theorem promised_stays (promised : v.Promised posted e) (same : w.stage = v.stage)
    (kept : v.Assured e → w.Assured e) : w.Promised posted e := by
  unfold Promised at promised ⊢
  rw [same]
  split at promised
  · exact kept promised
  · exact kept promised
  · exact kept promised
  · exact ⟨promised.1, kept promised.2⟩
  · exact ⟨promised.1, kept promised.2⟩
  · exact promised
  · exact promised
  · exact promised

theorem promised_next (next : Next id v w) (promised : v.Promised posted e) : w.Promised posted e := by
  cases next with
  | rest | shut => exact promised
  | claim _ _ listed => exact promised_stays promised rfl fun assured => absurd assured.1 listed
  | hand held claimed => exact promised_stays promised rfl (assured_hand · claimed)
  | drain =>
    refine promised_stays promised rfl fun assured => ?_
    exact ⟨rfl, by simp [assured.1, assured.2.1], assured.2.2⟩
  | release =>
    refine promised_stays promised rfl fun assured => ?_
    exact ⟨assured.1, rfl, assured.2.2⟩
  | collect held others listening handed =>
    have assured : v.Assured e := by
      obtain stage | ⟨fault, stage⟩ := listening
      · simpa only [Promised, stage] using promised
      · simpa only [Promised, stage] using promised
    exact .inl (by rw [assured_handed assured handed])
  | turn_away stage | call_off stage | check stage | register stage | mark _ stage
  | resign _ stage => simp only [Promised, stage] at promised
  | refuse stage | fail stage =>
    simp only [Promised, stage] at promised
    exact promised.1
  | confirm stage =>
    simp only [Promised, stage] at promised
    exact promised
  | post stage =>
    simp only [Promised, stage] at promised
    exact promised.2
  | withdraw stage =>
    simp only [Promised, stage] at promised
    exact .inr ⟨promised, rfl⟩
  | give_up _ stage | fall_behind _ stage =>
    simp only [Promised, stage] at promised
    exact promised
  | lose stage gone | orphan _ stage gone =>
    simp only [Promised, stage] at promised
    exact absurd gone (assured_not_gone promised)
  | leave _ stage listed =>
    simp only [Promised, stage] at promised
    exact absurd promised.1 listed

theorem promised_posted (promised : v.Promised posted e) (sent : v.stage.isPosted = true) : v.Promised true e := by
  cases stage : v.stage with
  | waiting | leaving | outrun => simpa only [Promised, stage] using promised
  | _ =>
    rw [stage] at sent
    cases sent

theorem lost_next (next : Next id v w) (lost : v.Lost) : w.Lost := by
  obtain ⟨closed, unlisted, unclaimed, unhanded, losing⟩ := lost
  cases next with
  | rest => exact ⟨closed, unlisted, unclaimed, unhanded, losing⟩
  | shut => exact ⟨rfl, unlisted, unclaimed, unhanded, losing⟩
  | release => exact ⟨closed, unlisted, unclaimed, unhanded, losing⟩
  | drain => exact ⟨closed, rfl, unclaimed, unhanded, losing⟩
  | claim _ _ listed | leave _ _ listed => exact absurd unlisted listed
  | hand e claimed =>
    rw [unclaimed] at claimed
    cases claimed
  | collect e others _ handed =>
    rw [unhanded] at handed
    cases handed
  | turn_away stage | call_off stage | check stage | register stage | mark _ stage =>
    rw [stage] at losing
    cases losing
  | refuse | confirm | post | fail | give_up | fall_behind | orphan | lose =>
    exact ⟨closed, unlisted, unclaimed, unhanded, rfl⟩
  | withdraw => exact ⟨closed, rfl, unclaimed, unhanded, rfl⟩
  | resign => exact ⟨closed, unlisted, unclaimed, unhanded, by rw [if_pos closed]; rfl⟩

theorem lost_result {r : Except Fault Envelope} (lost : v.Lost) (done : v.stage = .done r) : r = .error .closed := by
  have losing := lost.losing
  rw [done] at losing
  cases r with
  | ok e => cases losing
  | error fault =>
    cases fault with
    | closed => rfl
    | _ => cases losing

theorem result_next {r : Except Fault Envelope} (next : Next id v w) (done : v.stage = .done r) :
    w.stage = .done r := by
  cases next with
  | rest | claim | hand | shut | drain | release => exact done
  | collect e others listening =>
    obtain stage | ⟨fault, stage⟩ := listening
    · cases done.symm.trans stage
    · cases done.symm.trans stage
  | turn_away stage | call_off stage | check stage | register stage | refuse stage | confirm stage
  | post stage | fail stage | withdraw stage | lose stage | give_up _ stage | leave _ stage
  | mark _ stage | fall_behind _ stage | orphan _ stage | resign _ stage =>
    cases done.symm.trans stage

end View

theorem Link.listen_handed {l : Link} {k : Ticket} {others : List Envelope} (handed : (l.view k).handed = e :: others) :
    l.listen k.id = .reply e := by
  have found : l.handed.lookup k.id = some e := by
    rw [lookup_handed]
    exact congrArg List.head? handed
  simp [listen, found]

namespace Traffic

variable {sender : String} {t u : Traffic} {place : Nat} {k : Ticket} {e : Envelope}

theorem reply_taken (reached : Leads (start sender) t) (here : t.tickets[place]? = some k)
    (returned : k.result? = some (.ok e)) : e ∈ t.link.taken ∧ e.id = k.id := by
  have stage := Ticket.result_iff.mp returned
  refine ⟨?_, (requests_sound reached here).result e stage⟩
  have member : e ∈ t.replies :=
    List.mem_flatMap.mpr ⟨k, List.mem_of_getElem? here, by simp [Ticket.reply?, stage]⟩
  have held : e ∈ t.custody := Multiset.mem_add.mpr (.inl (Multiset.mem_coe.mpr member))
  rw [custody_balanced reached] at held
  exact Multiset.mem_coe.mp held

variable {r : Except Fault Envelope}

theorem result_kept (reached : Leads (start sender) t) (leads : Leads t u) (here : t.tickets[place]? = some k)
    (returned : k.result? = some r) :
    u.resultAt? place = some r := by
  have stage : (t.link.view k).stage = .done r := Ticket.result_iff.mp returned
  obtain ⟨k', there, _, after⟩ :=
    leads_keeps leads (ids_reached reached) here (fun _ _ => View.result_next) stage
  rw [resultAt?, there]
  exact Ticket.result_iff.mpr after

theorem claimed_promised (reached : Leads (start sender) t) (here : t.tickets[place]? = some k)
    (own : e.id = k.id) (listed : k.id ∈ t.link.pending) (idle : t.link.reader = .idle) :
    ((t.step (.read e)).link.view k).Promised k.stage.isPosted e := by
  have sound := requests_sound reached here
  have count := (listed_iff t.link k).mpr listed
  have single := sound.single
  simp only [View.copies] at single
  simp only [step, Link.view_take_own idle own listed]
  have assured : View.Assured e { t.link.view k with listed := 0, claimed := some e } :=
    ⟨rfl, by change (t.link.view k).drained = 0; omega, .inl ⟨rfl, List.length_eq_zero_iff.mp (by
      change (t.link.view k).handed.length = 0; omega)⟩⟩
  cases stage : k.stage with
  | waiting | leaving => simpa only [View.Promised, Link.view_stage, stage] using assured
  | registered | confirmed =>
    simpa only [View.Promised, Link.view_stage, stage, Stage.isPosted, true_and] using assured
  | refused => simp only [View.Promised, Link.view_stage, stage, Stage.isPosted]
  | _ => exact absurd (sound.unlisted (by simp [stage, Stage.isUnlisted])) count

theorem drained_lost (reached : Leads (start sender) t) (here : t.tickets[place]? = some k)
    (closed : t.link.closed = true) (listed : k.id ∈ t.link.pending) : ((t.step .drain).link.view k).Lost := by
  have sound := requests_sound reached here
  have count := (listed_iff t.link k).mpr listed
  have single := sound.single
  simp only [View.copies] at single
  have drained : (t.step .drain).link.view k =
      { t.link.view k with drained := (t.link.view k).listed + (t.link.view k).drained, listed := 0 } := by
    simp [step, closed, Link.view, Link.drain]
  rw [drained]
  refine ⟨closed, rfl, ?_, List.length_eq_zero_iff.mp (by dsimp only; omega), ?_⟩
  · exact Option.toList_eq_nil_iff.mp (List.length_eq_zero_iff.mp (by
      change (t.link.view k).claimed.toList.length = 0; omega))
  · cases stage : k.stage with
    | fresh | checked | marking | done => exact absurd (sound.unlisted (by simp [stage, Stage.isUnlisted])) count
    | _ => simp [stage, Stage.isLosing]

theorem delivered_assured (assured : (t.link.view k).Assured e) :
    (t.link.deliver.view k).handed = [e] ∧ (t.link.deliver.view k).listed = 0 := by
  obtain ⟨listed, _, ⟨claimed, none⟩ | ⟨unclaimed, one⟩⟩ := assured
  · simp [Link.view_deliver_claimed claimed, none, listed]
  · simp [Link.view_deliver_unclaimed unclaimed, one, listed]

section

variable (here : t.tickets[place]? = some k)
include here

theorem promised_result {posted : Bool} (promised : (t.link.view k).Promised posted e)
    (returned : t.resultAt? place = some r) : r = .ok e ∨ posted = false ∧ r = .error .closed := by
  rw [resultAt?, here] at returned
  have stage := Ticket.result_iff.mp returned
  simpa only [View.Promised, Link.view_stage, stage] using promised

theorem collects (listening : k.stage = .waiting ∨ ∃ fault, k.stage = .outrun fault)
    (handed : (t.link.view k).handed = [e]) (cancelled : Bool) :
    (t.proceed place cancelled).tickets[place]? = some { k with stage := .done (.ok e) } := by
  have heard := Link.listen_handed handed
  rw [proceed_ticket here]
  obtain stage | ⟨fault, stage⟩ := listening
  · simp [Ticket.advance, stage, heard]
  · simp [Ticket.advance, stage, heard]

theorem returned_stays (stage : k.stage = .done r) (cancelled : Bool) :
    (t.proceed place cancelled).tickets[place]? = some k := by
  rw [proceed_ticket here]
  simp [Ticket.advance, stage]

theorem falls_behind {fault : Fault} (stage : k.stage = .leaving fault) (unlisted : (t.link.view k).listed = 0)
    (cancelled : Bool) :
    (t.proceed place cancelled).tickets[place]? = some { k with stage := .outrun fault } ∧
      (t.proceed place cancelled).link = t.link := by
  have absent : k.id ∉ t.link.pending := fun listed => (listed_iff t.link k).mpr listed unlisted
  rw [proceed_ticket here, proceed_link here]
  simp [Ticket.advance, stage, absent]

theorem promised_returned (promised : (t.link.view k).Promised true e) (first second : Bool) :
    (((t.step .deliver).step (.proceed place first)).step (.proceed place second)).resultAt? place =
      some (.ok e) := by
  have after : (t.step .deliver).tickets[place]? = some k := here
  change ((((t.step .deliver).proceed place first).proceed place second).tickets[place]?).bind
    Ticket.result? = some (.ok e)
  cases stage : k.stage with
  | waiting =>
    simp only [View.Promised, Link.view_stage, stage] at promised
    have ended := collects after (.inl stage) (delivered_assured promised).1 first
    rw [returned_stays ended rfl]
    rfl
  | outrun fault =>
    simp only [View.Promised, Link.view_stage, stage] at promised
    have ended := collects after (.inr ⟨fault, stage⟩) (delivered_assured promised).1 first
    rw [returned_stays ended rfl]
    rfl
  | leaving fault =>
    simp only [View.Promised, Link.view_stage, stage] at promised
    obtain ⟨behind, link⟩ := falls_behind after stage (delivered_assured promised).2 first
    have handed := (delivered_assured promised).1
    change ((t.step .deliver).link.view { k with stage := .outrun fault }).handed = [e] at handed
    rw [← link] at handed
    rw [collects behind (.inr ⟨fault, rfl⟩) handed]
    rfl
  | done r =>
    simp only [View.Promised, Link.view_stage, stage, Bool.true_eq_false, false_and, or_false]
      at promised
    rw [returned_stays (returned_stays after stage first) stage]
    exact Ticket.result_iff.mpr (by rw [stage, promised])
  | _ => simp [View.Promised, stage] at promised

end

end Traffic

end Flowstep.Wire
