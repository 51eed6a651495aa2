import LintGate.Fault
import LintGate.Provenance

/-!
# Deciding on a run

A run fails when it has a reason to. What happens in a run is entered into a *decision*: the totals
of the report, each judged finding, each file whose provenance was fetched, and a fault that ends
the run. An entry gives at most one reason (`Entry.reason?`), reasons are only ever added, and
entries go on after a failure, so that the decision lists every reason in the end.

The totals can settle a run before any provenance is fetched: without errors, and with warnings
absent or harmless, no finding can be a reason. Which of the two it was is the decision's *notice*.
-/

namespace LintGate

open Schema

/-- **What came of a run.** -/
structure Outcome where
  /-- The run failed. -/
  failed : Bool := false
  /-- The reasons, in the order in which they came up. -/
  reasons : List String := []
  /-- The number of files whose provenance was fetched. -/
  filesBlamed : Nat := 0
  /-- The totals settled the run. -/
  shortCircuited : Bool := false
  deriving DecidableEq, Repr

namespace Outcome

/-- **An outcome as a record.** -/
def toJson (o : Outcome) : Json := .obj [
  ("should_fail", .bool o.failed), ("failure_reasons", .arr (o.reasons.map .str)),
  ("files_blamed", .int o.filesBlamed), ("short_circuited", .bool o.shortCircuited)]

/-- **The outcome a record holds.** -/
def ofJson : Json → Checked Outcome :=
  record fun ms =>
    ((((Checked.make Outcome.mk).and (optional ms "should_fail" false truth)).and
      (optional ms "failure_reasons" [] (listOf .notList text))).and
      (optional ms "files_blamed" 0 count)).and
      (optional ms "short_circuited" false truth)

end Outcome

/-- **Why the totals settle a run.** -/
inductive Notice
  /-- There are no errors, and warnings are harmless. -/
  | warningsIgnored
  /-- There is nothing at all. -/
  | nothingFound
  deriving DecidableEq, Repr

/-- The wording of a notice. -/
def Notice.text : Notice → String
  | warningsIgnored => "phpcs reported no errors and fail_on_warnings is disabled"
  | nothingFound => "There are no errors or warnings from phpcs"

/-- **The notice that totals give**, when they settle a run. -/
def Totals.notice? (t : Totals) (strict : Bool) : Option Notice :=
  if t.errors ≠ 0 then none
  else if !strict then some .warningsIgnored
  else if t.warnings = 0 then some .nothingFound
  else none

/-- The totals settle a run exactly when they count nothing that could fail it. -/
theorem Totals.notice?_eq_none_iff {t : Totals} {strict : Bool} :
    t.notice? strict = none ↔ t.errors ≠ 0 ∨ strict = true ∧ t.warnings ≠ 0 := by
  cases strict <;> by_cases he : t.errors = 0 <;> by_cases hw : t.warnings = 0 <;>
    simp [Totals.notice?, he, hw]

/-- **The finding makes a run fail**: the change brought it in, and it is an error, or warnings
count. -/
def Judged.counts (j : Judged) (strict : Bool) : Bool :=
  j.isNew && (j.finding.severity == .error || strict)

/-- **What is entered into a decision.** -/
inductive Entry
  /-- The totals of the report. -/
  | totals (t : Totals)
  /-- A judged finding. -/
  | finding (j : Judged)
  /-- A file's provenance was fetched. -/
  | blamed
  /-- A fault ended the run. -/
  | fault (f : Fault)
  deriving DecidableEq, Repr

/-- **The reason to fail that an entry gives**, if any. -/
def Entry.reason? (strict : Bool) : Entry → Option String
  | .finding j => if j.counts strict then some j.finding.message else none
  | .fault f => some f.reason
  | _ => none

/-- **A decision so far.** -/
structure Decision where
  /-- What came of the run so far. -/
  outcome : Outcome := {}
  /-- Why the totals settled it, if they did. -/
  notice : Option Notice := none
  deriving DecidableEq, Repr

namespace Decision

/-- The decision with one more reason. -/
def fail (d : Decision) (reason : String) : Decision :=
  { d with outcome := { d.outcome with
      failed := true, reasons := d.outcome.reasons ++ [reason] } }

/-- The decision with the totals taken into account; an earlier notice stays when they give none. -/
def weigh (d : Decision) (strict : Bool) (t : Totals) : Decision :=
  match t.notice? strict with
  | none => d
  | some n => { outcome := { d.outcome with shortCircuited := true }, notice := some n }

/-- **The decision with one more entry.** -/
def enter (strict : Bool) (d : Decision) (e : Entry) : Decision :=
  match e with
  | .totals t => d.weigh strict t
  | .blamed => { d with outcome := { d.outcome with filesBlamed := d.outcome.filesBlamed + 1 } }
  | e => match e.reason? strict with
    | some reason => d.fail reason
    | none => d

/-- The decision after some entries. -/
def enterAll (strict : Bool) (d : Decision) (es : List Entry) : Decision :=
  es.foldl (enter strict) d

/-- **An entry adds the reason it gives and no other.** -/
@[simp] theorem reasons_enter (strict : Bool) (d : Decision) (e : Entry) :
    (enter strict d e).outcome.reasons = d.outcome.reasons ++ (e.reason? strict).toList := by
  cases e with
  | totals t => cases h : t.notice? strict <;> simp [enter, weigh, Entry.reason?, h]
  | finding j => cases h : j.counts strict <;> simp [enter, fail, Entry.reason?, h]
  | blamed => simp [enter, Entry.reason?]
  | fault f => simp [enter, fail, Entry.reason?]

end Decision

end LintGate
