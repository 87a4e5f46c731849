import Flowstep.Proofs.Installs
import Flowstep.Proofs.LineOrigins

/-!
Which of the declared requirements of a project come to be resolved.
-/
namespace Flowstep.Package

def Requirement.First (declared : List Requirement) (r : Requirement) : Prop :=
  declared.find? (·.package == r.package) = some r

instance (declared : List Requirement) (r : Requirement) : Decidable (r.First declared) :=
  inferInstanceAs (Decidable (_ = _))

namespace Resolver

variable {σ : Type} {m : Installer σ} {cacheDir : String} {x y : Resolver σ}

theorem resolve_resolved {r : Requirement} {found : Resolution} (done : resolve m cacheDir r x = .ok found y) (spec : String) :
    spec ∈ y.resolved ↔ spec ∈ x.resolved ∨ r.Named ∧ spec = r.installSpec := by
  have ends := @resolve_plain _ m cacheDir r x
  rw [done] at ends
  cases ends with
  | ok _ _ told =>
    obtain ⟨calls, course, same⟩ := told
    rw [same]
    generalize outcome : Except.ok found = ended at course
    cases course with
    | skipped known =>
      refine ⟨.inl, ?_⟩
      rintro (held | ⟨named, rfl⟩)
      · exact held
      · exact known named
    | satisfied named => simp [named, or_comm]
    | checked named =>
      unfold Requirement.verdict at outcome ⊢
      split at outcome
      · cases outcome
      · split at outcome
        · simp_all [or_comm]
        · cases outcome
    | _ => cases outcome

theorem all_resolved {rs : List Requirement} {found : List Resolution} (done : resolveAll m cacheDir rs x = .ok found y)
    (spec : String) : spec ∈ y.resolved ↔ spec ∈ x.resolved ∨ ∃ r ∈ rs, r.Named ∧ spec = r.installSpec := by
  induction rs generalizing x found with
  | nil =>
    cases done
    simp
  | cons r rest ih =>
    obtain ⟨_, between, first, done⟩ := then_ok done
    obtain ⟨_, last, others, done⟩ := then_ok done
    cases done
    rw [ih others, resolve_resolved first, or_assoc]
    simp only [List.mem_cons, exists_eq_or_imp]

end Resolver

end Flowstep.Package

namespace Flowstep.Project

open Package (Requirement Installer Resolver Resolution)

def Document.declared (d : Document) : List Requirement := d.requirements ++ d.components.flatMap (·.requirements)

theorem mem_distinct_go (rs : List Requirement) (seen : List String) (r : Requirement) :
    r ∈ distinctPackages.go seen rs ↔ r.package ∉ seen ∧ r.First rs := by
  unfold Requirement.First
  induction rs generalizing seen with
  | nil => simp [distinctPackages.go]
  | cons q rest ih =>
    unfold distinctPackages.go
    by_cases same : q.package = r.package
    · by_cases known : r.package ∈ seen
      · simp [same, known, ih]
      · simp [same, known, ih, eq_comm]
    · have other : r ≠ q := fun equal => same (congrArg _ equal.symm)
      split
      · simp [same, ih]
      · simp [same, ih, other, Ne.symm same]

-- What has been resolved is what the first requirements of the packages ask for. So another requirement is honoured exactly
-- when some first one asks for the same.
theorem first_requirements_are_resolved {σ : Type} (settings : Settings) (tables : Flow.Tables) (d : Document) (bundle : Bundle)
    (built : d.build settings tables = .ok bundle) (m : Installer σ) (cacheDir : String) (st : σ) (found : List Resolution)
    (after : Resolver σ) (done : Resolver.resolveAll m cacheDir bundle.requirements { manager := st } = .ok found after) :
    (∀ r ∈ d.declared, r.Named →
      (r.installSpec ∈ after.resolved ↔ ∃ q ∈ d.declared, q.First d.declared ∧ q.Named ∧ r.installSpec = q.installSpec)) ∧
    ∀ spec ∈ after.resolved, ∃ r ∈ d.declared, r.Named ∧ spec = r.installSpec := by
  have resolved (spec : String) : spec ∈ after.resolved ↔
      ∃ q ∈ d.declared, q.First d.declared ∧ q.Named ∧ spec = q.installSpec := by
    have kept : bundle.requirements = distinctPackages d.declared := (build_parts built).2.2.1
    rw [Resolver.all_resolved done, kept]
    simp only [distinctPackages, mem_distinct_go, List.not_mem_nil, not_false_eq_true, true_and, false_or]
    constructor
    · rintro ⟨q, first, named, same⟩
      exact ⟨q, List.mem_of_find?_eq_some first, first, named, same⟩
    · rintro ⟨q, -, first, named, same⟩
      exact ⟨q, first, named, same⟩
  refine ⟨fun r _ _ => resolved r.installSpec, fun spec held => ?_⟩
  obtain ⟨q, member, -, named, same⟩ := (resolved spec).mp held
  exact ⟨q, member, named, same⟩

def pinnedProject (package : String) : Document where
  id := "pinned"
  units := [{ id := "p1" }]
  requirements := [{ package := "lib" }]
  components := [{ id := "c1", requirements := [{ package, version := some "2.0.0", strict := true }] }]

def stocked (version : String) : Installer Unit where
  installedVersion _ := pure (some version)
  download _ _ _ := pure ()
  installOffline _ _ := pure ()
  install _ _ := pure ()

theorem other_package_is_resolved : ∃ bundle found after, (pinnedProject "other").build {} .standard = .ok bundle ∧
    Resolver.resolveAll (stocked "2.0.0") "cache" bundle.requirements { manager := () } = .ok found after ∧
    ∀ r ∈ (pinnedProject "other").declared, r.installSpec ∈ after.resolved := by
  have builds : ∃ bundle found after, (pinnedProject "other").build {} .standard = .ok bundle ∧
      Resolver.resolveAll (stocked "2.0.0") "cache" bundle.requirements { manager := () } = .ok found after :=
    ⟨_, _, _, rfl, rfl⟩
  obtain ⟨bundle, found, after, built, done⟩ := builds
  have honoured := (first_requirements_are_resolved {} .standard _ bundle built _ "cache" () found after done).1
  have each : ∀ r ∈ (pinnedProject "other").declared, r.Named ∧ r.First (pinnedProject "other").declared := by decide +kernel
  refine ⟨bundle, found, after, built, done, fun r member => ?_⟩
  exact (honoured r member (each r member).1).mpr ⟨r, member, (each r member).2, (each r member).1, rfl⟩

theorem second_requirement_is_dropped : ∃ bundle found after, (pinnedProject "lib").build {} .standard = .ok bundle ∧
    Resolver.resolveAll (stocked "1.0.0") "cache" bundle.requirements { manager := () } = .ok found after ∧
    ∃ r ∈ (pinnedProject "lib").declared, r.Named ∧ r.isSatisfiedBy "1.0.0" = false ∧ r.installSpec ∉ after.resolved :=
  ⟨_, _, _, rfl, rfl, _, List.mem_cons_of_mem _ (List.mem_singleton_self _), by decide +kernel, by decide +kernel,
    by decide +kernel⟩

end Flowstep.Project
