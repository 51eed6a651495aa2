import LintGate.Finding

/-!
# Reports

A report is what one run of the linter says about a batch of files: three totals, which the linter
counts itself, and the findings of each file. Files stand in the order in which the linter names
them, and so do the findings of a file. Nothing ties the totals to the findings; whatever relies on
their agreement has to say so.
-/

namespace LintGate

open Schema

/-- **The linter's own counts.** -/
structure Totals where
  /-- Findings that are errors. -/
  errors : Nat := 0
  /-- Findings that are warnings. -/
  warnings : Nat := 0
  /-- Findings the linter could mend. -/
  fixable : Nat := 0
  deriving DecidableEq, Repr, Inhabited

/-- The counts as a record. -/
def Totals.toJson (t : Totals) : Json := .obj [
  ("errors", .int t.errors), ("warnings", .int t.warnings), ("fixable", .int t.fixable)]

/-- The counts a record holds; a count that is absent is zero. -/
def Totals.ofJson : Json → Checked Totals :=
  record fun ms =>
    (((Checked.make Totals.mk).and (optional ms "errors" 0 count)).and
      (optional ms "warnings" 0 count)).and
      (optional ms "fixable" 0 count)

/-- **A report of the linter.** -/
structure Report where
  /-- The linter's own counts. -/
  totals : Totals := {}
  /-- The findings of each file. -/
  files : Table String (List Finding) := []
  deriving DecidableEq, Repr, Inhabited

namespace Report

/-- The number of findings in all files. -/
def findingCount (r : Report) : Nat := (r.files.flatMap Prod.snd).length

/-- The files, in the order of the report. -/
def names (r : Report) : List String := r.files.keys

/-- **A report as a record.** -/
def toJson (r : Report) : Json := .obj [
  ("totals", r.totals.toJson),
  ("files", .obj (r.files.map fun f => (f.1, .arr (f.2.map Finding.toJson))))]

/-- **The report a record holds.** -/
def ofJson : Json → Checked Report :=
  record fun ms =>
    ((Checked.make Report.mk).and (optional ms "totals" {} Totals.ofJson)).and
      (optional ms "files" [] (tableOf fun _ => listOf .notTuple Finding.ofJson))

end Report

end LintGate
