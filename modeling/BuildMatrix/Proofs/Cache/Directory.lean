import BuildMatrix.Execution.Task
import BuildMatrix.Proofs.Environment
import BuildMatrix.Proofs.Matrix.Words
import BuildMatrix.Workflow.Basic

/-!
# The cache directories of plans

A plan's cache directory is named by its slug, and the steps of the plan find it in their
environment. Plans have one directory in common exactly if they have the same words.
-/

namespace BuildMatrix

namespace CachePolicy

theorem directoryFor_eq_iff (policy : CachePolicy) (p q : Plan) :
    policy.directoryFor p = policy.directoryFor q ↔ p.words = q.words := by
  have hrelative (plan : Plan) : Path.isAbsolute plan.slug = false :=
    Path.isAbsolute_of_not_mem plan.isName_slug.slash
  rw [directoryFor, directoryFor, Path.join_inj (hrelative p) (hrelative q), Plan.slug_eq_iff]

/--
Plans have one cache directory in common exactly if their axes and values have the same words, and
exactly then their steps are told the same directory.
-/
theorem directory_shared_iff (p q : Plan) :
    (∀ policy : CachePolicy, policy.directoryFor p = policy.directoryFor q ↔ p.words = q.words) ∧
    ∀ (job : Job) (s t : Setup),
      (Task.context job p s).environment.get? Task.cacheVariable =
        (Task.context job q t).environment.get? Task.cacheVariable ↔ p.words = q.words := by
  refine ⟨fun policy => policy.directoryFor_eq_iff p q, fun job s t => ?_⟩
  rw [Task.context, Task.context, Environment.get?_set, Environment.get?_set, Option.some_inj]
  exact job.workflow.cache.directoryFor_eq_iff p q

end CachePolicy

/-- Two versions of which one is written with a dash in place of the dot. -/
def dashedVersions : WorkflowConfig :=
  { matrix := [(.string "python-version", .sequence [.string "3.8", .string "3-8"])] }

/-- The runs of a valid configuration, at the same time, use one cache directory. -/
theorem directoryFor_dashedVersions :
    ∃ workflow p q, dashedVersions.toWorkflow "/home" = .ok workflow ∧
      p ∈ workflow.plans ∧ q ∈ workflow.plans ∧ p ≠ q ∧
      workflow.cache.directoryFor p = workflow.cache.directoryFor q := by
  obtain ⟨workflow, hworkflow⟩ : ∃ workflow, dashedVersions.toWorkflow "/home" = .ok workflow :=
    ⟨_, rfl⟩
  have hplans : workflow.plans =
      [⟨[("python-version", "3.8")]⟩, ⟨[("python-version", "3-8")]⟩] := by
    cases hworkflow
    rfl
  refine ⟨workflow, ⟨[("python-version", "3.8")]⟩, ⟨[("python-version", "3-8")]⟩, hworkflow, ?_⟩
  rw [hplans]
  refine ⟨by simp, by simp, by decide, ?_⟩
  exact (workflow.cache.directoryFor_eq_iff _ _).mpr (by decide)

end BuildMatrix
