import Flowstep.Proofs.Installs
import Mathlib.Data.List.DropRight

/-!
The requested version of a package is good enough for its requirement, unless a version may be later and has no number to start
with: then no version will do.
-/
namespace Flowstep.Text

theorem trim_eq (s : String) : trim s = String.ofList ((s.toList.dropWhile isBlank).rdropWhile isBlank) := by
  rw [trim, trimStart, trimEnd, String.toList_ofList]
  rfl

theorem trim_trim (s : String) : trim (trim s) = trim s := by
  have solid : ((s.toList.dropWhile isBlank).rdropWhile isBlank).dropWhile isBlank =
      (s.toList.dropWhile isBlank).rdropWhile isBlank := by
    obtain ⟨cut, whole⟩ := List.rdropWhile_prefix isBlank (s.toList.dropWhile isBlank)
    cases kept : (s.toList.dropWhile isBlank).rdropWhile isBlank with
    | nil => rfl
    | cons c rest =>
      have head := List.head?_dropWhile_not isBlank s.toList
      rw [← whole, kept] at head
      exact List.dropWhile_cons_of_neg (Bool.eq_false_iff.mp head)
  rw [trim_eq, trim_eq, String.toList_ofList, solid, List.rdropWhile_idempotent]

end Flowstep.Text

namespace Flowstep.Package

theorem compare_components_self (ns : List Nat) : compareComponents ns ns = .eq := by
  induction ns with
  | nil => rw [compareComponents]
  | cons n rest ih => simp [compareComponents, ih]

theorem components_congr {v w : String} (same : Text.trim w = Text.trim v) : components w = components v := by
  rw [components, components, same]

variable {r : Requirement} {v : String}

theorem satisfied_iff (requested : r.version = some v) (given : Text.trim v ≠ "") (installed : String) :
    r.isSatisfiedBy installed ↔ if r.strict then Text.trim installed = Text.trim v else
      components v ≠ [] ∧ (components installed).head? = (components v).head? ∧
        (compareComponents (components installed) (components v)).isGE := by
  have wants : r.requested? = some (Text.trim v) := by simp [Requirement.requested?, requested, given]
  unfold Requirement.isSatisfiedBy
  rw [wants]
  dsimp only
  rw [components_congr (Text.trim_trim v)]
  split
  · simp
  · cases components installed <;> cases components v <;> simp

theorem requested_version_suffices (σ : Type) (requested : r.version = some v) (given : Text.trim v ≠ "") :
    (∀ w, Text.trim w = Text.trim v → (r.isSatisfiedBy w ↔ r.strict ∨ components v ≠ [])) ∧
    (∀ w, r.isSatisfiedBy w → r.strict ∨ components v ≠ []) ∧
    ∀ (m : Installer σ) (dir : String) (x y : Resolver σ) (name wanted found : String), r.strict ∨ components v ≠ [] →
      (∀ s t w, m.Placed r s → m.installedVersion (Text.trim r.package) s = .ok (some w) t → Text.trim w = Text.trim v) →
      ¬ m.Fails (.versionMismatch name wanted found) →
      Resolver.resolve m dir r x ≠ .error (.versionMismatch name wanted found) y := by
  have needs (w : String) (meets : r.isSatisfiedBy w) : r.strict ∨ components v ≠ [] := by
    rw [satisfied_iff requested given] at meets
    split at meets
    · exact .inl ‹_›
    · exact .inr meets.1
  have enough (comparable : r.strict ∨ components v ≠ []) (w : String) (same : Text.trim w = Text.trim v) :
      r.isSatisfiedBy w := by
    rw [satisfied_iff requested given, components_congr same, compare_components_self]
    split
    · exact same
    · exact ⟨comparable.resolve_left ‹_›, rfl, rfl⟩
  refine ⟨fun w same => ⟨needs w, (enough · w same)⟩, needs, ?_⟩
  intro m dir x y name wanted found comparable exact never ends
  have told := @Resolver.resolve_plain _ m dir r x
  rw [ends] at told
  cases told with
  | error _ _ told =>
    obtain ⟨calls, course, -⟩ := told
    generalize outcome : Except.error (Failure.versionMismatch name wanted found) = ended at course
    cases course with
    | skipped => cases outcome
    | satisfied => cases outcome
    | unanswered e fails => cases outcome; exact never fails
    | failed _ _ _ e _ fails => cases outcome; exact never fails
    | unchecked _ _ _ e _ fails => cases outcome; exact never fails
    | checked _ _ _ _ _ s t placed there checks =>
      cases there with
      | none => cases outcome
      | some w =>
        rw [Requirement.verdict, if_pos (enough comparable w (exact s t w placed checks))] at outcome
        cases outcome

-- A package manager with one version of everything satisfies who asks for that version.
theorem only_version_suffices : ¬ ∃ x y : Resolver Unit, Resolver.resolve
    ⟨fun _ => pure (some "2.1-rc"), fun _ _ _ => pure (), fun _ _ => pure (), fun _ _ => pure ()⟩ "cache"
    ⟨"lib", some " 2.1-rc ", false, none⟩ x = .error (.versionMismatch "lib" "lib>=2.1-rc,<3" "2.1-rc") y := by
  rintro ⟨x, y, ends⟩
  refine (requested_version_suffices Unit rfl (by decide +kernel)).2.2 _ _ x y _ _ _ (.inr (by decide +kernel)) ?_ ?_ ends
  · rintro s t w - ⟨⟩
    decide +kernel
  · rintro (⟨_, _, _, ⟨⟩⟩ | ⟨_, _, _, _, ⟨⟩⟩)

theorem tag_never_suffices : Requirement.isSatisfiedBy ⟨"lib", some "latest", false, none⟩ "latest" = false ∧
    ∃ y, Resolver.resolve Shelf.manager "cache" ⟨"lib", some "latest", false, none⟩ { manager := {} } =
      .error (.versionMismatch "lib" "lib==latest" "latest") y := ⟨by decide +kernel, _, rfl⟩

-- The components of a version up to a number of places, where a missing one is zero.
def padded (places : Nat) (ns : List Nat) : List Nat := ns ++ List.replicate (places - ns.length) 0

theorem padded_succ (places : Nat) (ns : List Nat) : padded (places + 1) ns = ns.headD 0 :: padded places ns.tail := by
  cases ns with
  | nil => rfl
  | cons n ns => simp [padded]

theorem compare_components_step (a b : List Nat) :
    compareComponents a b = (compare (a.headD 0) (b.headD 0)).then (compareComponents a.tail b.tail) := by
  cases a with
  | nil =>
    cases b with
    | nil => simp
    | cons n bs => simp [compareComponents]
  | cons m as =>
    cases b with
    | nil => simp [compareComponents]
    | cons n bs => simp [compareComponents]

variable {places : Nat} {a b c : List Nat}

theorem compare_components_padded (first : a.length ≤ places) (second : b.length ≤ places) :
    compareComponents a b = compare (padded places a) (padded places b) := by
  induction places generalizing a b with
  | zero =>
    obtain rfl := List.length_eq_zero_iff.mp (Nat.le_zero.mp first)
    obtain rfl := List.length_eq_zero_iff.mp (Nat.le_zero.mp second)
    rw [compareComponents]
    rfl
  | succ places ih =>
    rw [compare_components_step, padded_succ, padded_succ]
    rw [ih (by simp; omega) (by simp; omega)]
    exact List.compareLex_cons_cons.symm

theorem compare_components_trans (first : (compareComponents a b).isGE) (second : (compareComponents b c).isGE) :
    (compareComponents a c).isGE := by
  let places := max a.length (max b.length c.length)
  have left : a.length ≤ places := Nat.le_max_left _ _
  have middle : b.length ≤ places := by omega
  have right : c.length ≤ places := by omega
  rw [compare_components_padded left middle] at first
  rw [compare_components_padded middle right] at second
  rw [compare_components_padded left right]
  exact Std.TransCmp.isGE_trans first second

theorem compare_components_total (a b : List Nat) : (compareComponents a b).isGE ∨ (compareComponents b a).isGE := by
  have left := Nat.le_max_left a.length b.length
  have right := Nat.le_max_right a.length b.length
  rw [compare_components_padded left right, compare_components_padded right left, @Std.OrientedCmp.eq_swap _ compare]
  cases compare (padded _ b) (padded _ a) <;> decide

theorem compare_components_zeros (a b : List Nat) (m n : Nat) :
    compareComponents (a ++ List.replicate m 0) (b ++ List.replicate n 0) = compareComponents a b := by
  let places := max (a.length + m) (b.length + n)
  have filled (ns : List Nat) (k : Nat) (fits : ns.length + k ≤ places) :
      padded places (ns ++ List.replicate k 0) = padded places ns := by
    rw [padded, List.append_assoc, List.replicate_append_replicate, List.length_append, List.length_replicate]
    congr 2
    omega
  have first : a.length + m ≤ places := Nat.le_max_left _ _
  have second : b.length + n ≤ places := Nat.le_max_right _ _
  have same : compareComponents a b = compare (padded places a) (padded places b) :=
    compare_components_padded (by omega) (by omega)
  rw [same, ← filled a m first, ← filled b n second]
  exact compare_components_padded (by simpa using first) (by simpa using second)

theorem components_given (numbered : components v ≠ []) : Text.trim v ≠ "" := by
  intro blank
  rw [components, blank] at numbered
  exact numbered (by decide +kernel)

theorem lenient_versions_are_a_range {major : Nat} (lenient : r.strict = false) (requested : r.version = some v)
    (numbered : (components v).head? = some major) :
    (∀ w places, (components w).length ≤ places → (components v).length ≤ places →
      (r.isSatisfiedBy w ↔ (components w).head? = some major ∧
        (compare (padded places (components w)) (padded places (components v))).isGE)) ∧
    (∀ a b, (compareComponents a b).isGE ∨ (compareComponents b a).isGE) ∧
    (∀ a b c, (compareComponents a b).isGE → (compareComponents b c).isGE → (compareComponents a c).isGE) ∧
    (∀ a b m n, compareComponents (a ++ List.replicate m 0) (b ++ List.replicate n 0) = compareComponents a b) ∧
    ∀ u w, r.isSatisfiedBy u → (components w).head? = some major →
      (compareComponents (components w) (components u)).isGE → r.isSatisfiedBy w := by
  have present : components v ≠ [] := by
    intro empty
    rw [empty] at numbered
    cases numbered
  have accepts (w : String) : r.isSatisfiedBy w ↔
      (components w).head? = some major ∧ (compareComponents (components w) (components v)).isGE := by
    rw [satisfied_iff requested (components_given present), lenient, if_neg Bool.false_ne_true, numbered]
    exact and_iff_right present
  refine ⟨fun w places first second => ?_, compare_components_total, fun _ _ _ => compare_components_trans,
    compare_components_zeros, fun u w known same above => ?_⟩
  · rw [accepts, compare_components_padded first second]
  · exact (accepts w).mpr ⟨same, compare_components_trans above ((accepts u).mp known).2⟩

theorem tenth_release_suffices : Requirement.isSatisfiedBy ⟨"lib", some " 2.4-rc.1 ", false, none⟩ "2.10" := by
  have range := lenient_versions_are_a_range (r := ⟨"lib", some " 2.4-rc.1 ", false, none⟩) rfl rfl
    (show (components " 2.4-rc.1 ").head? = some 2 by decide +kernel)
  exact (range.1 "2.10" 3 (by decide +kernel) (by decide +kernel)).mpr (by decide +kernel)

end Flowstep.Package
