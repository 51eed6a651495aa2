import LintGate.Finding

/-!
# Provenance

The provenance of a file tells, for each of its lines, the revision that last touched it. A finding
is judged by it: it is *inherited* when its line was last touched at the boundary of the change,
and *introduced* otherwise. Revisions may be shortened, so the boundary need only be a beginning of
the line's revision; and a line that the provenance does not know counts as touched by the change,
so nothing is ever excused by a gap.
-/

namespace LintGate

open Schema

/-- **The revision of each line**, in the order in which the lines were first named. -/
abbrev Provenance := Table Nat String

/-- **Whether the change under review brought a finding in.** -/
inductive Origin
  | introduced
  | inherited
  deriving DecidableEq, Repr

namespace Origin

/-- The name of an origin in records. -/
def name : Origin → String
  | introduced => "new"
  | inherited => "inherited"

/-- The origins by name. -/
def names : List (String × Origin) := [("new", introduced), ("inherited", inherited)]

/-- An origin by its exact name. -/
def named : Json → Checked Origin := listed names

end Origin

namespace Provenance

/-- The line was last touched at the boundary. -/
def isSettled (p : Provenance) (boundary : String) (line : Nat) : Bool :=
  match p.get? line with
  | some revision => boundary.toList.isPrefixOf revision.toList
  | none => false

/-- **The origin of a finding.** -/
def origin (p : Provenance) (boundary : String) (f : Finding) : Origin :=
  if p.isSettled boundary f.line then .inherited else .introduced

/-- A finding is inherited exactly when the boundary begins the revision of its line. -/
theorem origin_eq_inherited_iff {p : Provenance} {boundary : String} {f : Finding} :
    p.origin boundary f = .inherited ↔
      ∃ revision, p.get? f.line = some revision ∧ boundary.toList <+: revision.toList := by
  cases h : p.get? f.line <;> simp [origin, isSettled, h]

/-- The provenance as a record: the lines are keys. -/
def toJson (p : Provenance) : Json :=
  .obj (p.map fun entry => (toString entry.1, .str entry.2))

end Provenance

/-- **A finding with its origin.** -/
structure Judged where
  /-- The finding. -/
  finding : Finding
  /-- Where it comes from. -/
  origin : Origin
  deriving DecidableEq, Repr

namespace Judged

/-- The name of the record in messages. -/
def recordName : String := "ClassifiedDiagnostic"

/-- The change brought the finding in. -/
def isNew (j : Judged) : Bool := j.origin = .introduced

/-- **A judged finding as a record.** -/
def toJson (j : Judged) : Json :=
  .obj [("diagnostic", j.finding.toJson), ("status", .str j.origin.name)]

/-- **The judged finding a record holds.** -/
def ofJson : Json → Checked Judged :=
  record fun ms =>
    ((Checked.make Judged.mk).and (required ms "diagnostic" Finding.ofJson)).and
      (required ms "status" Origin.named)

end Judged

/-- **The findings of a file, judged** in the order of the report. -/
def Provenance.judge (p : Provenance) (boundary : String) (fs : List Finding) : List Judged :=
  fs.map fun f => ⟨f, p.origin boundary f⟩

end LintGate
