import Flowstep.Proofs.Twins

/-!
A force-stop ends a script.
-/
namespace Flowstep.Script

variable {σ α : Type}

inductive Ask where
  | checkpoint (line : Nat) (scope : Scope)
  | call (call : AtomicCall)
  | report (level : Report.Level) (record : Value)
  | sleep (seconds : Float)
  | print (text : String)

structure Answered (σ : Type) where
  ask : Ask
  stop : Option Stop
  left : World σ

def Answered.halts (entry : Answered σ) : Bool := entry.stop.any Stop.isHalted

abbrev Watched (σ : Type) := World (σ × List (Answered σ))

def World.watched (w : World σ) (record : List (Answered σ)) : Watched σ := ⟨w.globals, w.host, record⟩

def World.unwatched (w : Watched σ) : World σ := ⟨w.globals, w.host.1⟩

def watch (ask : Ask) (p : EStateM Stop (World σ) α) : EStateM Stop (Watched σ) α := fun w =>
  match p w.unwatched with
  | .ok a left => .ok a (left.watched (w.host.2 ++ [⟨ask, none, left⟩]))
  | .error stop left => .error stop (left.watched (w.host.2 ++ [⟨ask, some stop, left⟩]))

def Host.watched (h : Host σ) : Host (σ × List (Answered σ)) where
  checkpoint line scope := watch (.checkpoint line scope) (h.checkpoint line scope)
  callAtomic call := watch (.call call) (h.callAtomic call)
  report level record := watch (.report level record) (h.report level record)
  sleep seconds := watch (.sleep seconds) (h.sleep seconds)
  print text := watch (.print text) (h.print text)

def Program.watch (h : Host σ) (unit : String) (fuel : Nat) (program : Program) (args : Dict Value) (w : World σ) :
    EStateM.Result Stop (Watched σ) (Dict Value) := program.run h.watched unit fuel args (w.watched [])

def record (result : EStateM.Result Stop (Watched σ) α) : List (Answered σ) := (lastState result).host.2

def Ask.call? : Ask → Option AtomicCall
  | .call asked => some asked
  | _ => none

def callsOf (entries : List (Answered σ)) : List AtomicCall := entries.filterMap (·.ask.call?)

def Clean (entries : List (Answered σ)) : Prop := ∀ entry ∈ entries, entry.halts = false

theorem clean_snoc {entries : List (Answered σ)} {entry : Answered σ} (clean : Clean entries)
    (goes : entry.halts = false) : Clean (entries ++ [entry]) := by
  intro other mem
  rcases List.mem_append.mp mem with old | new
  · exact clean other old
  · rw [List.mem_singleton.mp new]
    exact goes

theorem split_unique {P : α → Prop} {front rest before after : List α} {x y : α}
    (split : front ++ x :: rest = before ++ y :: after) (holds : P x) (early : ∀ z ∈ before, ¬ P z)
    (late : ∀ z ∈ after, ¬ P z) : x = y ∧ rest = after := by
  rcases List.append_eq_append_iff.mp split with ⟨gap, rfl, meets⟩ | ⟨gap, rfl, meets⟩
  · cases gap with
    | nil => exact List.cons.inj meets
    | cons z gap =>
      obtain ⟨rfl, -⟩ := List.cons.inj meets
      exact absurd holds (early x (by simp))
  · cases gap with
    | nil => exact (List.cons.inj meets).imp Eq.symm Eq.symm
    | cons z gap =>
      obtain ⟨-, rfl⟩ := List.cons.inj meets
      exact absurd holds (late x (by simp))

-- At most the last request was answered by a force-stop, and then the world is as that request left it.
def LastHalts (entries : List (Answered σ)) (w : World σ) : Prop :=
  Clean entries ∨ ∃ front last, entries = front ++ [last] ∧ Clean front ∧ last.left = w

theorem halt_is_last {front rest : List (Answered σ)} {entry : Answered σ} {w : World σ}
    (ends : LastHalts (front ++ entry :: rest) w) (halts : entry.halts = true) : rest = [] ∧ entry.left = w := by
  rcases ends with clean | ⟨before, last, split, clean, left⟩
  · exact absurd (halts.symm.trans (clean entry (by simp))) (by decide)
  · have early : ∀ z ∈ before, ¬ z.halts = true := fun z mem => by rw [clean z mem]; decide
    obtain ⟨rfl, none⟩ := split_unique split halts early (by simp)
    exact ⟨none, left⟩

def watching (σ : Type) : Bond σ (σ × List (Answered σ)) where
  running w v := v.unwatched = w ∧ Clean v.host.2
  halted w v := v.unwatched = w ∧ LastHalts v.host.2 w
  ends _ _ tied := ⟨tied.1, .inl tied.2⟩
  globals _ _ tied := congrArg World.globals tied.1.symm
  assigns _ _ table tied := ⟨congrArg (fun w : World σ => { w with globals := table }) tied.1, tied.2⟩

theorem watch_matches {ask : Ask} {p : EStateM Stop (World σ) α} :
    Matches (watching σ).running (watching σ).halted p (watch ask p) := by
  rintro w v ⟨rfl, clean⟩
  unfold watch
  cases p v.unwatched with
  | ok a left => exact .ok a left _ ⟨rfl, clean_snoc clean rfl⟩
  | error stop left =>
    refine .error stop left _ (fun live => ⟨rfl, clean_snoc clean live⟩) (fun dead => ⟨rfl, .inr ?_⟩)
    exact ⟨v.host.2, ⟨ask, some stop, left⟩, rfl, clean, rfl⟩

theorem watched_twins (h : Host σ) : Twins (watching σ) h h.watched where
  checkpoint _ _ _ := watch_matches
  callAtomic _ := watch_matches
  report _ _ := watch_matches
  sleep _ := watch_matches
  print _ := watch_matches

theorem halted_request_ends_run (h : Host σ) (unit : String) (fuel : Nat) (program : Program) (args : Dict Value)
    (w : World σ) : mapState World.unwatched (program.watch h unit fuel args w) = program.run h unit fuel args w ∧
      ∀ front entry rest, record (program.watch h unit fuel args w) = front ++ entry :: rest → entry.halts = true →
        rest = [] ∧ ∃ e, e.isHalted = true ∧ program.run h unit fuel args w = .error (.error e) entry.left := by
  have clean : Clean (w.watched ([] : List (Answered σ))).host.2 := fun _ mem => absurd mem List.not_mem_nil
  have ends := program_matches (watched_twins h) unit fuel program args w (w.watched []) ⟨rfl, clean⟩
  refine ⟨alike_project (watching σ).ends (fun _ _ tied => tied.1) ends, fun front entry rest split halts => ?_⟩
  unfold record Program.watch at split
  generalize program.run h unit fuel args w = left, program.run h.watched unit fuel args (w.watched []) = right at *
  have passes (clean : Clean (lastState right).host.2) : False := by
    have goes := clean entry (split ▸ by simp)
    exact absurd (halts.symm.trans goes) (by decide)
  cases ends with
  | ok outputs s t tied => exact (passes tied.2).elim
  | error stop s t going past =>
    cases halted : stop.isHalted with
    | false => exact (passes (going halted).2).elim
    | true =>
      obtain ⟨none, left⟩ := halt_is_last (split ▸ (past halted).2) halts
      refine ⟨none, ?_⟩
      cases stop with
      | error e => exact ⟨e, halted, by rw [left]⟩
      | abort => exact absurd halted (by decide)
      | exhausted => exact absurd halted (by decide)

def stopping : Host Unit where
  checkpoint _ _ := pure ()
  callAtomic _ := throw (Stop.ofKind .halted)
  report _ _ := pure ()
  sleep _ := pure ()
  print _ := pure ()

-- def main(args):
--   while True:
--     try: page = [1, Page.fetch()]
--     except: print("caught")
--     finally: print("done")
def guardedFetch : Program where
  body := [⟨1, .define ⟨"main", ["args"], [⟨2, .whileLoop (.lit (.bool true)) [⟨3, .tryBlock
    [⟨4, .assign [.name "page"] (.list [.lit (.int 1), .call (.attr (.name "Page") "fetch") [] []])⟩]
    (some ⟨5, none, [⟨6, .expr (.call (.name "print") [.lit (.str "caught")] [])⟩]⟩)
    (some ⟨7, [⟨8, .expr (.call (.name "print") [.lit (.str "done")] [])⟩]⟩)⟩]⟩], 1⟩⟩]

theorem guarded_fetch_ends_at_call : ∃ front entry,
    record (guardedFetch.watch stopping "page" 20 ∅ ⟨∅, ()⟩) = front ++ [entry] ∧ front.length = 4 ∧
      entry.halts = true ∧ ∃ e, e.isHalted = true ∧
        guardedFetch.run stopping "page" 20 ∅ ⟨∅, ()⟩ = .error (.error e) entry.left := by
  let seen (line : Nat) (scope : Scope) : Answered Unit := ⟨.checkpoint line scope, none, ⟨∅, ()⟩⟩
  let inside : Scope := ⟨"page", Dict.ofList [("args", .map ∅)], 1⟩
  let fetch : Answered Unit := ⟨.call ⟨"Page.fetch", ⟨[], []⟩, "page", 4⟩, some (Stop.ofKind .halted), ⟨∅, ()⟩⟩
  have split : record (guardedFetch.watch stopping "page" 20 ∅ ⟨∅, ()⟩) =
      [seen 1 ⟨"page", ∅, 0⟩, seen 2 inside, seen 3 inside, seen 4 inside] ++ fetch :: [] := rfl
  refine ⟨_, fetch, split, rfl, rfl, ?_⟩
  exact ((halted_request_ends_run stopping "page" 20 guardedFetch ∅ ⟨∅, ()⟩).2 _ _ _ split rfl).2

end Flowstep.Script
