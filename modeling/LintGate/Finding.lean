import LintGate.Schema

/-!
# Findings

A finding is one remark of the linter: where it was made, how severe it is, what it says and
which rule made it. Findings are records of the interchange format too: `Finding.toJson` writes
one and `Finding.ofJson` reads it back, naming everything that is wrong with a value that is none.

The linter labels the severity freely, in any letter case and with blanks around it; our own
records use the lower-case name and nothing else. `Severity.ofLabel?` and `Severity.named` are
these two readings.
-/

namespace LintGate

open Schema

/-- **How severe a finding is.** -/
inductive Severity
  | error
  | warning
  deriving DecidableEq, Repr, Inhabited

namespace Severity

/-- The name of a severity in records and in annotation lines. -/
def name : Severity → String
  | error => "error"
  | warning => "warning"

/-- The severities by name. -/
def names : List (String × Severity) := [("error", error), ("warning", warning)]

/-- A severity by its exact name. -/
def named : Json → Checked Severity := listed names

/-- **The severity a label means**: its name in any letter case, with any blanks around it. Only
ASCII letters are lowered, for the lower case of no other letter is made of the letters of a
severity's name. -/
def ofLabel? (label : String) : Option Severity :=
  names.lookup (String.ofList ((Text.trim label).toList.map Char.toLower))

/-- Every severity is listed under its name. -/
theorem lookup_name (s : Severity) : names.lookup s.name = some s := by
  cases s <;> decide

end Severity

/-- **A finding of the linter.** -/
structure Finding where
  /-- The file, as the linter names it. -/
  file : String
  /-- The line, counted from one. -/
  line : Nat
  /-- The column, counted from one. -/
  column : Nat
  /-- How severe the finding is. -/
  severity : Severity
  /-- What it says. -/
  message : String
  /-- The rule that made it. -/
  source : String
  deriving DecidableEq, Repr, Inhabited

namespace Finding

/-- The name of the record in messages. -/
def recordName : String := "Diagnostic"

/-- **A finding as a record.** -/
def toJson (f : Finding) : Json := .obj [
  ("file", .str f.file), ("line", .int f.line), ("column", .int f.column),
  ("severity", .str f.severity.name), ("message", .str f.message), ("source", .str f.source)]

/-- **The finding a record holds.** -/
def ofJson : Json → Checked Finding :=
  record fun ms =>
    ((((((Checked.make Finding.mk).and (required ms "file" text)).and
      (required ms "line" position)).and
      (required ms "column" position)).and
      (required ms "severity" Severity.named)).and
      (required ms "message" text)).and
      (required ms "source" text)

/-- The finding with the given parts, when line and column are places in a file. -/
def checked (file : String) (line column : Int) (severity : Severity) (message source : String) :
    Checked Finding :=
  ((Checked.make fun l c => Finding.mk file l c severity message source).and
    ((position (.int line)).under (.key "line"))).and
    ((position (.int column)).under (.key "column"))

end Finding

end LintGate
