import LintGate.Path
import LintGate.Provenance

/-!
# Annotation lines

The findings that a change brought in are written as lines that a problem matcher turns into
annotations: a *marker* that names a file, relative to the root directory, and below it one line
per finding. The marker is written only when a finding follows, and once per file. It opens an
element that is never closed, for the matcher does not ask for it.

Inherited findings go to the log instead, where no matcher looks. There every finding has its
marker right before it.

`Annotations` is what has to be remembered between findings: the marker of the file and whether it
was written. `lines` is what a finding adds and `after` what is remembered then.
-/

namespace LintGate

/-- **Where lines go.** -/
inductive Channel
  /-- The lines that become annotations. -/
  | primary
  /-- The log. -/
  | log
  /-- The reasons for a failure. -/
  | failure
  deriving DecidableEq, Repr

/-- A line and where it goes. -/
abbrev Written := Channel × String

/-- **The marker of a file**, which names it as seen from the root directory. -/
def fileMarker (root : Path) (file : String) : String :=
  "<file name=\"" ++ ((root.join (.ofString file)).relativeTo root).toString ++ "\">"

/-- **The line of a finding.** Its texts stand as they are. -/
def errorLine (f : Finding) : String :=
  "<error line=\"" ++ toString f.line ++ "\" column=\"" ++ toString f.column ++
    "\" severity=\"" ++ f.severity.name ++ "\" message=\"" ++ f.message ++
    "\" source=\"" ++ f.source ++ "\"/>"

/-- **What is remembered between findings.** -/
structure Annotations where
  /-- The marker of the file. -/
  marker : String := ""
  /-- The marker was written. -/
  opened : Bool := false
  deriving DecidableEq, Repr

namespace Annotations

/-- A file is begun: nothing is written, and its marker is still to come. -/
def start (root : Path) (file : String) : Annotations := ⟨fileMarker root file, false⟩

/-- **The lines that a finding adds.** -/
def lines (a : Annotations) (j : Judged) : List Written :=
  let line := errorLine j.finding
  match j.origin, a.opened with
  | .introduced, false => [(.primary, a.marker), (.primary, line)]
  | .introduced, true => [(.primary, line)]
  | .inherited, _ => [(.log, a.marker), (.log, line)]

/-- What is remembered after a finding. -/
def after (a : Annotations) (j : Judged) : Annotations :=
  { a with opened := a.opened || j.isNew }

/-- What is done to annotations. -/
inductive Step
  /-- A file is begun. -/
  | start (file : String)
  /-- A finding of the file is written. -/
  | finding (j : Judged)
  deriving DecidableEq, Repr

/-- The lines of a step. -/
def stepLines (a : Annotations) : Step → List Written
  | .start _ => []
  | .finding j => a.lines j

/-- What is remembered after a step. -/
def afterStep (root : Path) (a : Annotations) : Step → Annotations
  | .start file => .start root file
  | .finding j => a.after j

/-- **The lines of some steps.** -/
def allLines (root : Path) (a : Annotations) : List Step → List Written
  | [] => []
  | s :: ss => a.stepLines s ++ allLines root (a.afterStep root s) ss

/-- What is remembered after some steps. -/
def afterAll (root : Path) (a : Annotations) (ss : List Step) : Annotations :=
  ss.foldl (afterStep root) a

/-- **A file reported as a whole**: it is begun, and its findings are written. -/
def report (file : String) (js : List Judged) : List Step :=
  .start file :: js.map .finding

@[simp] theorem marker_after (a : Annotations) (j : Judged) : (a.after j).marker = a.marker := rfl

/-- The lines of more steps go on where the others ended. -/
theorem allLines_append (root : Path) (a : Annotations) (ss ts : List Step) :
    a.allLines root (ss ++ ts) = a.allLines root ss ++ (a.afterAll root ss).allLines root ts := by
  induction ss generalizing a with
  | nil => rfl
  | cons s ss ih => simp [allLines, afterAll, ih]

end Annotations

end LintGate
