import CodeQuality.Proofs.Run.Server
import CodeQuality.Proofs.Run.Settings
import CodeQuality.Run

/-!
# What an invocation comes to

A run is about a server, or about the settings, or it just prints a text. Only the first kind sends
anything, and only the second kind has anything to do with the files.

* `Invocation.journal_run_of_ne`, `Invocation.files_run_of_ne` — what the other kinds leave alone.
-/

namespace CodeQuality
namespace Invocation

variable {s : Surroundings} {i : Invocation}

theorem run_of_server {task : ServerTask} (h : i.task = .server task) :
    i.run s = s.carryOut (task.run s i.options) := by
  rw [run, command, h]

theorem run_of_settings {task : SettingsTask} (h : i.task = .settings task) :
    i.run s = s.carryOut (task.run s i.options.json) := by
  rw [run, command, h]

/-- An invocation that is neither about a server nor about the settings prints a text. -/
theorem run_of_else (hserver : ∀ task, i.task ≠ .server task)
    (hsettings : ∀ task, i.task ≠ .settings task) : ∃ text, i.run s = s.shows text s.files := by
  unfold run command
  split
  · next task htask => exact absurd htask (hserver task)
  · next task htask => exact absurd htask (hsettings task)
  · exact ⟨_, Surroundings.carryOut_prints (Command.prints_print _)⟩
  · exact ⟨_, Surroundings.carryOut_prints (Command.prints_print _)⟩

/-- Only a task for a server makes a call. -/
theorem journal_run_of_ne (h : ∀ task, i.task ≠ .server task) : (i.run s).journal = {} := by
  by_cases hsettings : ∃ task, i.task = .settings task
  · obtain ⟨task, htask⟩ := hsettings
    have hends := task.ends_run s i.options.json
    rw [run_of_settings htask]
    generalize s.carryOut (task.run s i.options.json) = o at hends ⊢
    cases hends <;> rfl
  · obtain ⟨text, hrun⟩ := run_of_else h (not_exists.mp hsettings)
    rw [hrun]
    rfl

/-- Only a task for the settings has anything to do with the files. -/
theorem files_run_of_ne (h : ∀ task, i.task ≠ .settings task) : (i.run s).files = s.files := by
  by_cases hserver : ∃ task, i.task = .server task
  · obtain ⟨task, htask⟩ := hserver
    rw [run_of_server htask]
    exact task.files_carryOut s i.options
  · obtain ⟨text, hrun⟩ := run_of_else (not_exists.mp hserver) h
    rw [hrun]
    rfl

end Invocation
end CodeQuality
