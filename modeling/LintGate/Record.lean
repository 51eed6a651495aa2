import LintGate.Decision
import LintGate.Json.Printer
import LintGate.Report
import LintGate.Settings

/-!
# Kinds of records

Everything that is exchanged is a record of some kind. A kind has a name, which messages use, and a
normal form: what a value of that kind is once it was read and written again. Records of most kinds
are never changed. The one that can be changed takes any value for a field that it has. Names that
begin with an underscore are no fields: a record lets them be set and never shows them, except for
one that tells of the record itself (`RecordKind.derived`).

A record is written compactly (`RecordKind.text?`), as long as its values are not nested too deeply.
-/

namespace LintGate

open Schema

/-- **A kind of records.** -/
structure RecordKind where
  /-- Its name in messages. -/
  name : String
  /-- The normal form of a value. -/
  normal : Json → Checked Json
  /-- Its records can be changed. -/
  changeable : Bool := false
  /-- The fields that hold integers; a truth value in one of them counts as zero or one. -/
  integers : List String := []
  /-- The fields that hold lists. -/
  lists : List String := []

/-- **Why a field cannot be set.** -/
inductive SetFault
  /-- The record cannot be changed. -/
  | frozen (i : Invalid)
  /-- It has no such field. -/
  | unknown (record field : String)
  /-- The name is that of something derived. -/
  | derived (record name : String)
  deriving DecidableEq, Repr

/-- The wording about a field that cannot be set. -/
def SetFault.message : SetFault → String
  | frozen i => i.message
  | unknown record field =>
    "\"" ++ record ++ "\" object has no field \"" ++ field ++ "\""
  | derived record name =>
    "property " ++ Text.quote name ++ " of " ++ Text.quote record ++ " object has no setter"

namespace RecordKind

/-- Findings. -/
def finding : RecordKind :=
  { name := Finding.recordName, normal := fun j => (Finding.ofJson j).map Finding.toJson }

/-- The linter's counts. -/
def totals : RecordKind :=
  { name := "LintTotals", normal := fun j => (Totals.ofJson j).map Totals.toJson }

/-- Reports. -/
def report : RecordKind :=
  { name := "LintBatchResult", normal := fun j => (Report.ofJson j).map Report.toJson }

/-- Judged findings. -/
def judged : RecordKind :=
  { name := Judged.recordName, normal := fun j => (Judged.ofJson j).map Judged.toJson }

/-- Outcomes, which a run adds to as it goes. -/
def outcome : RecordKind :=
  { name := "RunOutcome", normal := fun j => (Outcome.ofJson j).map Outcome.toJson,
    changeable := true, integers := ["files_blamed"], lists := ["failure_reasons"] }

/-- Settings. -/
def settings : RecordKind :=
  { name := Settings.recordName, normal := fun j => (Settings.ofJson j).map Settings.toJson }

/-- All kinds. -/
def all : List RecordKind := [finding, totals, report, judged, outcome, settings]

/-- The kind of a name. -/
def ofName? (name : String) : Option RecordKind := all.find? (·.name == name)

/-- **A value in the normal form of a kind.** -/
def read (k : RecordKind) (j : Json) : Except Invalid Json := (k.normal j).named k.name

/-- What every record tells of itself, besides its fields; none of it can be set. -/
def derived : List String := ["__fields_set__", "model_extra", "model_fields_set"]

/-- A name that is no field and that no record shows. -/
def isHidden (name : String) : Bool := name.toList.head? == some '_'

/-- A value as a field holds it: a truth value counts as a number where integers are held. -/
def held (k : RecordKind) (field : String) (v : Json) : Json :=
  match v with
  | .bool b => if field ∈ k.integers then .int b.toInt else v
  | _ => v

/-- **A record with a field set**: apart from that the value is taken as it is. -/
def set (k : RecordKind) (j : Json) (field : String) (v : Json) : Except SetFault Json :=
  if isHidden field then
    if field ∈ derived then .error (.derived k.name field) else .ok j
  else if !k.changeable then .error (.frozen ⟨k.name, [⟨[.key field], .frozen⟩]⟩)
  else if field ∈ derived then .error (.derived k.name field)
  else if (j.member? field).isSome then .ok (j.withMember field (k.held field v))
  else .error (.unknown k.name field)

/-- The most levels that a field's value may have. -/
def deepest : Nat := 255

/-- How many levels a field's value has; a list does not count where lists are held. -/
def levelsIn (k : RecordKind) (field : String) (v : Json) : Nat :=
  match v with
  | .arr items => if field ∈ k.lists then Json.levelsOfItems items else v.levels
  | _ => v.levels

/-- **The text of a record**, unless a field has too many levels. -/
def text? (k : RecordKind) (j : Json) : Option String :=
  if (j.members?.getD []).all fun (field, v) => k.levelsIn field v ≤ deepest then
    some (j.write Json.compact)
  else none

/-- The message about a record that has no text. -/
def tooManyLevels : String :=
  "Error serializing to JSON: ValueError: Maximum serialization depth exceeded"

end RecordKind

end LintGate
