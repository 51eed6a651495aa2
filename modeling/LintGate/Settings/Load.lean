import LintGate.Event
import LintGate.Settings

/-!
# Loading settings

Settings are made of inputs as they were given: texts that may be absent or blank. The linter has to
be given. The base revision is taken from its own input, and from the event when that is absent or
blank. A blank coding standard is none.

The inputs are looked at in this order, so of several things that are wrong the first is told.
-/

namespace LintGate.Settings

/-- **The inputs of a run.** -/
structure Inputs where
  /-- The linter's executable. -/
  linter : Option String := none
  /-- The coding standard. -/
  standard : Option String := none
  /-- The word that tells whether warnings count. -/
  strictness : Option String := none
  /-- The base revision. -/
  base : Option String := none
  /-- The path of the event. -/
  event : Option Path := none
  /-- The number of jobs, in any form that writes an integer. -/
  jobs : Json := .int 1
  /-- The root directory. -/
  root : Option Path := none
  deriving Repr

/-- An input's text without the blanks around it, if there is any. -/
def given? (input : Option String) : Option String := input.bind Text.trimmed?

/-- The base revision: as given, or as the event tells. -/
def baseOf (h : Host) (i : Inputs) : Except Fault String :=
  match given? i.base with
  | some base => .ok base
  | none => Event.loadBase h i.event

/-- **The settings that inputs make.** -/
def load (h : Host) (i : Inputs) : Except Fault Settings :=
  match given? i.linter with
  | none => .error (.setup .noLinter)
  | some linter =>
    match baseOf h i with
    | .error f => .error f
    | .ok base =>
      (checked (.ofString linter) (given? i.standard) (strictOf i.strictness) base i.jobs
        (i.root.getD .root)).mapError fun why => .setup (.settings why)

end LintGate.Settings
