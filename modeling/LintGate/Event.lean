import LintGate.Fault
import LintGate.Host

/-!
# Events

A workflow that checks a proposed change is started by an event, and the event's document tells
which revision the change starts from: it is the `sha` of the `base` of the `pull_request`. A
revision of blanks alone is none; otherwise the blanks around it are left out.
-/

namespace LintGate.Event

open Schema

/-- The name of the record in messages. -/
def recordName : String := "_PullRequestEvent"

/-- A revision, without the blanks around it. -/
def revision (j : Json) : Checked String :=
  match text j with
  | .ok s => match Text.trimmed? s with
    | some r => .ok r
    | none => .fail .refused
  | .error ps => .error ps

/-- The base revision in an event's document, with everything that is wrong with it. -/
def checkedBase : Json → Checked String :=
  record fun ms => required ms "pull_request" <| record fun ms => required ms "base" <|
    record fun ms => required ms "sha" revision

/-- **The base revision that an event tells.** -/
def base (j : Json) : Except SetupFault String :=
  ((checkedBase j).named recordName).mapError .eventShape

/-- The JSON value of an event's document. -/
def document (path : Path) (text : String) : Except Fault Json :=
  match Json.read text with
  | .ok j => .ok j
  | .error (.flawed flaw place) => .error (.setup (.eventText path flaw place))
  | .error (.digits count) => .error (.numeral count)
  | .error (.nesting b) => .error (.nesting b)

/-- **The base revision that the event at a path tells.** -/
def loadBase (h : Host) (path : Option Path) : Except Fault String := do
  match path with
  | none => throw (.setup .noEvent)
  | some path =>
    let bytes ← (h.readBytes path).mapError fun why => Fault.setup (.eventAccess path why)
    let text ← (Host.textOf .utf8 .refuse bytes).mapError Fault.undecodable
    let j ← document path text
    (base j).mapError .setup

end LintGate.Event
