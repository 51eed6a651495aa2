import LintGate.Annotations
import LintGate.Decision
import LintGate.Json.Printer
import LintGate.Linter
import LintGate.Provenance.Blame
import LintGate.Settings

/-!
# Reviewing a change

A review lints some files, and for the findings of each file asks which the change brought in. What
it does is first laid out as a *plan*: a list of deeds, each of which starts a command, writes a
line, enters something into the decision, or ends the review with a fault. The plan depends on what
the sources answer and on nothing else. Then the deeds are done one after the other
(`Review.perform`), and it is only here that a channel can refuse a line, which ends the review too.

A fault that ends a review is logged, and recorded as one more reason to fail (`Review.conclude`).
An interruption is not recorded and leaves the review as it is; so does a fault that comes up while
another one is being recorded.

With several jobs all provenances are asked for before the first is used. They are used in the
order of the files all the same, so nothing but the moment at which a command starts depends on the
number of jobs. In either case they come out of an iteration over the files, which passes on the
faults of their source (`Fault.passedOn`).
-/

namespace LintGate

/-- **Where findings and provenance come from.** -/
structure Sources where
  /-- The linter's report on the files. -/
  lint : Attempt Report
  /-- The provenance of each file that the report names. -/
  blame : String → Attempt Provenance

namespace Sources

/-- **The sources that a runner gives** for some files; everything is run in the root
directory. -/
def ofRunner (run : Runner) (s : Settings) (files : List String) : Sources where
  lint := Linter.lint run (some s.root) s.linter s.lintOptions files
  blame := Blame.blame run (some s.root) s.range

/-- The sources once all provenances were asked for. -/
def fetched (s : Sources) : Sources := { s with blame := fun file => (s.blame file).silent }

end Sources

namespace Review

/-- **A deed of a review.** -/
inductive Deed
  /-- A command is started. -/
  | start (c : Call)
  /-- A line is written. -/
  | write (w : Written)
  /-- Something is entered into the decision; the reason it gives is announced. -/
  | enter (e : Entry)
  /-- A fault ends the review. -/
  | stop (f : Fault)
  deriving DecidableEq, Repr

/-! ## The plan -/

/-- An attempt's commands, and what follows from its result. -/
def attempted {α : Type} (x : Attempt α) (next : α → List Deed) : List Deed :=
  x.calls.map .start ++
    match x.result with
    | .ok a => next a
    | .error f => [.stop f]

/-- **The deeds for judged findings**: each one is written, then entered. -/
def findingDeeds (a : Annotations) : List Judged → List Deed
  | [] => []
  | j :: js => (a.lines j).map .write ++ .enter (.finding j) :: findingDeeds (a.after j) js

/-- **The deeds for a file** whose provenance was fetched. -/
def fileDeeds (s : Settings) (file : String) (fs : List Finding) (p : Provenance) : List Deed :=
  .enter .blamed :: .write (.log, p.toJson.write Json.spaced) ::
    findingDeeds (.start s.root file) (p.judge s.base fs)

/-- The deeds for all files, in the order of the report. -/
def filesDeeds (s : Settings) (sources : Sources) (files : Table String (List Finding)) :
    List Deed :=
  files.flatMap fun (file, fs) => attempted (sources.blame file).passedOn (fileDeeds s file fs)

/-- All provenances are asked for before the first is used. -/
def fetchesAhead (s : Settings) (r : Report) : Bool := 1 < s.jobs && 1 < r.files.length

/-- The deeds for the files of a report that its totals do not settle. -/
def provenanceDeeds (s : Settings) (sources : Sources) (r : Report) : List Deed :=
  if fetchesAhead s r then
    (r.names.flatMap fun file => (sources.blame file).calls.map Deed.start) ++
      filesDeeds s sources.fetched r.files
  else filesDeeds s sources r.files

/-- The line that says how much the linter found. -/
def summary (r : Report) : String :=
  "phpcs reported " ++ toString r.findingCount ++ " finding(s) in " ++
    toString r.files.length ++ " file(s)"

/-- **The deeds for a report.** -/
def reportDeeds (s : Settings) (sources : Sources) (r : Report) : List Deed :=
  .write (.log, summary r) :: .write (.log, r.toJson.write Json.compact) ::
    .enter (.totals r.totals) ::
      if (r.totals.notice? s.strict).isSome then [] else provenanceDeeds s sources r

/-- **The plan of a review.** -/
def plan (s : Settings) (sources : Sources) : List Deed :=
  attempted sources.lint (reportDeeds s sources)

/-! ## Doing the deeds -/

/-- **What takes the lines**: the fault with which a channel answers its next line, when it has
taken so many, or nothing if it takes it. -/
abbrev Sinks := Channel → Nat → Option Fault

/-- Sinks that take every line. -/
def Sinks.open : Sinks := fun _ _ => none

/-- **What a review has done.** -/
structure Trace where
  /-- The commands that were started. -/
  calls : List Call := []
  /-- The lines that were taken. -/
  lines : List Written := []
  /-- The decision. -/
  decision : Decision := {}
  deriving DecidableEq, Repr

namespace Trace

/-- The number of lines that a channel has taken. -/
def taken (t : Trace) (c : Channel) : Nat := t.lines.countP (·.1 == c)

/-- A line offered to its channel. -/
def offer (sinks : Sinks) (t : Trace) (w : Written) : Trace × Option Fault :=
  match sinks w.1 (t.taken w.1) with
  | none => ({ t with lines := t.lines ++ [w] }, none)
  | some f => (t, some f)

end Trace

/-- **A deed done.** -/
def Deed.perform (sinks : Sinks) (strict : Bool) (t : Trace) : Deed → Trace × Option Fault
  | .start c => ({ t with calls := t.calls ++ [c] }, none)
  | .write w => t.offer sinks w
  | .enter e =>
    let t := { t with decision := t.decision.enter strict e }
    match e.reason? strict with
    | none => (t, none)
    | some reason => t.offer sinks (.failure, reason)
  | .stop f => (t, some f)

/-- **Deeds done one after the other**, up to the first fault. -/
def perform (sinks : Sinks) (strict : Bool) (t : Trace) : List Deed → Trace × Option Fault
  | [] => (t, none)
  | d :: ds =>
    match d.perform sinks strict t with
    | (t, none) => perform sinks strict t ds
    | (t, some f) => (t, some f)

/-- What is logged about where a fault came up. -/
def faultLog : String := "<traceback>\n"

/-- The deeds that record a fault. -/
def faultDeeds (f : Fault) : List Deed := [.write (.log, faultLog), .enter (.fault f)]

/-- **The end of a review**: a fault that ended it is logged and recorded. -/
def conclude (sinks : Sinks) (strict : Bool) : Trace × Option Fault → Trace × Option Fault
  | (t, none) => (t, none)
  | (t, some f) =>
    if f.isRecorded then perform sinks strict t (faultDeeds f) else (t, some f)

/-- **A whole review.** The fault, if any, is one that the review could not record. -/
def run (s : Settings) (sources : Sources) (sinks : Sinks) : Trace × Option Fault :=
  conclude sinks s.strict (perform sinks s.strict {} (plan s sources))

/-! ## Small laws -/

/-- A successful attempt's commands come before what follows from its result. -/
theorem attempted_of_ok {α : Type} {x : Attempt α} {a : α} (h : x.result = .ok a)
    (next : α → List Deed) : attempted x next = x.calls.map Deed.start ++ next a := by
  rw [attempted, h]

/-- A failed attempt's commands come before its fault. -/
theorem attempted_of_error {α : Type} {x : Attempt α} {f : Fault} (h : x.result = .error f)
    (next : α → List Deed) : attempted x next = x.calls.map Deed.start ++ [.stop f] := by
  rw [attempted, h]

/-- Deeds behind others are done when these end without a fault. -/
theorem perform_append (sinks : Sinks) (strict : Bool) (t : Trace) (ds es : List Deed) :
    perform sinks strict t (ds ++ es) =
      match perform sinks strict t ds with
      | (t, none) => perform sinks strict t es
      | (t, some f) => (t, some f) := by
  induction ds generalizing t with
  | nil => rfl
  | cons d ds ih =>
    simp only [List.cons_append, perform]
    split
    · exact ih _
    · rfl

/-- Nothing is done behind a fault. -/
@[simp] theorem perform_stop (sinks : Sinks) (strict : Bool) (t : Trace) (f : Fault)
    (ds : List Deed) : perform sinks strict t (.stop f :: ds) = (t, some f) := rfl

/-- Open sinks take a line. -/
@[simp] theorem Trace.offer_open (t : Trace) (w : Written) :
    t.offer .open w = ({ t with lines := t.lines ++ [w] }, none) := rfl

end Review

end LintGate
