import LintGate.Proofs.Attempt
import LintGate.Settings.Load

/-!
# Which inputs make settings

Inputs make settings in one way (`load_eq_ok_iff`): the linter is given, there is a base, and the
number of jobs is one. Every field of the settings can be told from the inputs, and only the base
needs the host.
-/

namespace LintGate.Settings

variable {h : Host} {i : Inputs} {s : Settings}

/-- **The settings that inputs make.** -/
theorem load_eq_ok_iff :
    load h i = .ok s ↔
      ∃ linter base jobs, given? i.linter = some linter ∧ baseOf h i = .ok base ∧ base ≠ "" ∧
        jobCount i.jobs = .ok jobs ∧
        s = ⟨.ofString linter, given? i.standard, strictOf i.strictness, base, jobs,
          i.root.getD .root⟩ := by
  unfold load
  cases given? i.linter with
  | none => simp
  | some linter =>
    cases baseOf h i with
    | error f => simp
    | ok base => simp [mapError_eq_ok_iff, checked_eq_ok_iff]

/-- Settings have the number of jobs that is given. -/
theorem jobCount_of_load (hs : load h i = .ok s) : jobCount i.jobs = .ok s.jobs := by
  obtain ⟨linter, base, jobs, -, -, -, hjobs, rfl⟩ := load_eq_ok_iff.1 hs
  exact hjobs

/-- Settings have the linter that is given, without the blanks around it. -/
theorem linter_of_load {linter : String} (hs : load h i = .ok s)
    (hlinter : given? i.linter = some linter) : s.linter = .ofString linter := by
  obtain ⟨linter', base, jobs, hlinter', -, -, -, rfl⟩ := load_eq_ok_iff.1 hs
  rw [hlinter] at hlinter'
  cases hlinter'
  rfl

end LintGate.Settings
