import LintGate.Host.Launch
import LintGate.Invocation
import LintGate.Review
import LintGate.Status

/-!
# The program

A run of the program reads its invocation, makes settings of it, settles which files to lint, and
reviews them. Everything it says is an *utterance*, and its output is what the utterances read as,
one after the other. The exit status is one when the run failed, or could not even begin.

A fault of the kinds that the program announces is said as an error before the review begins. Any
other fault at that point leaves the program as it is, and so does an interruption at any point.
-/

namespace LintGate

/-- **Something the program says.** -/
inductive Utterance
  /-- A message for the log. -/
  | debug (message : String)
  /-- An error. -/
  | error (message : String)
  /-- A line that may become an annotation. -/
  | line (text : String)
  /-- A status line. -/
  | status (tone : Tone) (message : String)
  deriving DecidableEq, Repr

/-- **What an utterance reads as.** -/
def Utterance.text (d : Display) : Utterance → String
  | debug message => Workflow.debugText message
  | error message => Workflow.errorText message
  | line text => Workflow.written text
  | status tone message => Status.shown d tone message

/-- A line of a review as an utterance. -/
def Utterance.ofWritten : Written → Utterance
  | (.primary, written) => .line written
  | (.log, message) => .debug message
  | (.failure, reason) => .error reason

/-- **How a run of the program ended.** -/
structure Ending where
  /-- The exit status. -/
  exit : Nat
  /-- What was said. -/
  said : List Utterance := []
  /-- The commands that were started. -/
  calls : List Call := []
  /-- The fault that left the program, if one did. -/
  fault : Option Fault := none
  deriving DecidableEq, Repr

namespace Program

/-- The version of the program. -/
def version : String := "0.1.0"

/-- The exit status of a run that failed. -/
def failure : Nat := 1

/-- The exit status of a command line that asks for nothing. -/
def usage : Nat := 2

/-- The exit status of an interrupted run. -/
def interrupted : Nat := 130

/-- **What to lint, and with which settings.** -/
structure Assignment where
  /-- The settings. -/
  settings : Settings
  /-- The files. -/
  files : List String
  deriving DecidableEq, Repr

/-- The files to lint: those given, or those that the change touches. -/
def targets (h : Host) (i : Invocation) (s : Settings) : Attempt (List String) :=
  if i.files = [] then Changes.discover h h.runner s.base s.root i.patterns else .done i.files

/-- **The beginning of a run.** -/
def begin (h : Host) (i : Invocation) : Attempt Assignment := do
  let settings ← Attempt.ofResult (Settings.load h i.inputs)
  let files ← targets h i settings
  return { settings, files }

/-- A run that a fault leaves. -/
def left (said : List Utterance) (calls : List Call) (f : Fault) : Ending :=
  if f.kind = .interrupt then { exit := interrupted, said, calls }
  else { exit := failure, said, calls, fault := some f }

/-- **A run that could not begin.** -/
def notBegun (calls : List Call) (f : Fault) : Ending :=
  if f.isAnnounced then
    { exit := failure
      said := [.debug Review.faultLog, .error f.text, .status .fail f.text]
      calls }
  else left [] calls f

/-- The status line about a failed run. -/
def failedLine (o : Outcome) : String :=
  "phpcs found " ++ toString o.reasons.length ++ " problem(s) on changed lines"

/-- **The closing words on a decision.** -/
def closing (d : Decision) : List Utterance :=
  (d.notice.map fun n => Utterance.status .info n.text).toList ++
    [if d.outcome.failed then .status .fail (failedLine d.outcome)
      else .status .ok "No phpcs problems on changed lines"]

/-- The exit status that an outcome means. -/
def exitOf (o : Outcome) : Nat := if o.failed then failure else 0

/-- **The review of an assignment**, with everything run on the host. -/
def review (h : Host) (a : Assignment) : Review.Trace × Option Fault :=
  Review.run a.settings (.ofRunner h.runner a.settings a.files) .open

/-- **A run once it has begun**; `calls` were started before. -/
def begun (h : Host) (calls : List Call) (a : Assignment) : Ending :=
  if a.files = [] then { exit := 0, said := [.status .ok "No files to lint"], calls }
  else
    let (trace, fault) := review h a
    let said := trace.lines.map .ofWritten
    match fault with
    | some f => left said (calls ++ trace.calls) f
    | none =>
      { exit := exitOf trace.decision.outcome
        said := said ++ closing trace.decision
        calls := calls ++ trace.calls }

/-- **A run of the program** for an invocation. -/
def run (h : Host) (i : Invocation) : Ending :=
  let beginning := begin h i
  match beginning.result with
  | .error f => notBegun beginning.calls f
  | .ok a => begun h beginning.calls a

/-- How an invocation's status lines are shown where no terminal is. -/
def display (i : Invocation) : Display := { symbols := i.symbols }

/-- **The output of a run.** -/
def output (d : Display) (said : List Utterance) : String :=
  String.join (said.map (Utterance.text d))

end Program

end LintGate
