import CodeQuality.Run.Basic

/-!
# Exit codes

Only a run that has failed has an exit code other than that of success, and only a refusal has one
other than that of a failure.

* `RunError.exitCode_ofResponse` — the exit code for a refusal.
-/

namespace CodeQuality

namespace RunError

theorem exitCode_ne_success (e : RunError) : e.exitCode ≠ success := by
  unfold exitCode
  split <;> decide

/-- The exit code for a refusal with this status. -/
def codeFor (status : Http.Status) : Nat :=
  if status.code = 401 ∨ status.code = 403 then refused
  else if status.code = 404 then unknown
  else failure

theorem exitCode_ofResponse (status : Http.Status) (body : String) :
    (call (.ofResponse status body)).exitCode = codeFor status := by
  unfold ApiError.ofResponse codeFor
  dsimp only
  split
  · next h => rw [h]; rfl
  · next h => rw [h]; rfl
  · next h => rw [h]; rfl
  · next h => rw [h]; rfl
  · next hunauthorized hforbidden hunknown =>
    rw [if_neg (not_or.mpr ⟨hunauthorized, hforbidden⟩), if_neg hunknown]
    split <;> rfl

variable {s : Surroundings}

theorem exitCode_of_loadSettings {e : RunError} (h : s.loadSettings = .error e) :
    e.exitCode = RunError.failure := by
  unfold Surroundings.loadSettings at h
  split at h
  · cases h
    rfl
  · next path _ =>
    cases hload : Settings.load s.files path with
    | error cause =>
      rw [hload] at h
      cases h
      rfl
    | ok settings =>
      rw [hload] at h
      cases h

end RunError

end CodeQuality
