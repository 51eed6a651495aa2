import LintGate.Path
import LintGate.Report.Document
import LintGate.Text.Encoding

/-!
# Faults

A fault ends what was being done. Each kind of trouble is a constructor with the facts that make it
up, and the wording is worked out from these in one place, `Fault.text`. Faults fall into kinds,
which decide how far a fault travels: `isRecorded` faults are kept as the failure of a review, and
`isAnnounced` ones are reported even before a review begins. A fault without any text is
named by its kind.

One kind does not travel unchanged. An iteration says by a fault that it is over, so a fault of that
kind which comes up inside another iteration would be taken for the end of that one. It is passed on
as a different fault instead (`Fault.passedOn`).
-/

namespace LintGate

open Schema

/-- **The kinds of faults.** -/
inductive FaultKind
  /-- Something failed at run time. -/
  | runtime
  /-- A value is not usable. -/
  | value
  /-- A key is unknown. -/
  | key
  /-- The system refused. -/
  | system
  /-- A file is absent. -/
  | absent
  /-- An access is not permitted. -/
  | permission
  /-- The user interrupted the program. -/
  | interrupt
  /-- A tool gave nothing to work with. -/
  | tool
  /-- The program is not set up. -/
  | configuration
  /-- A value is not the record it should be. -/
  | record
  /-- Bytes are no text. -/
  | undecodable
  /-- A document is nested too deeply. -/
  | nesting
  /-- An iteration is over. Kinds derived from this one have names of their own. -/
  | exhausted (name : String) (named : name ≠ "")
  /-- A kind that nothing here depends on, by its name. -/
  | other (name : String) (named : name ≠ "")
  deriving DecidableEq, Repr

/-- The name of a kind, which stands for a fault that has no text of its own. -/
def FaultKind.name : FaultKind → String
  | runtime => "RuntimeError"
  | value => "ValueError"
  | key => "KeyError"
  | system => "OSError"
  | absent => "FileNotFoundError"
  | permission => "PermissionError"
  | interrupt => "KeyboardInterrupt"
  | tool => "ExternalToolError"
  | configuration => "ConfigurationError"
  | record => "ValidationError"
  | undecodable => "UnicodeDecodeError"
  | nesting => "RecursionError"
  | exhausted name _ => name
  | other name _ => name

/-- The kind that iterations themselves end with. -/
def FaultKind.iterationOver : FaultKind := .exhausted "StopIteration" (by decide)

/-- The kind says that an iteration is over. -/
def FaultKind.isExhausted : FaultKind → Bool
  | exhausted .. => true
  | _ => false

/-- No kind goes without a name. -/
theorem FaultKind.name_ne_empty (k : FaultKind) : k.name ≠ "" := by
  cases k with
  | exhausted name named => exact named
  | other name named => exact named
  | _ => decide

/-- **A fault reported from outside**: its kind, and what was said about it, if anything. -/
structure Reported where
  /-- The kind. -/
  kind : FaultKind
  /-- What was said. -/
  note : Option String
  deriving DecidableEq, Repr

/-- The text of a reported fault; an unknown key is shown in quotes. -/
def Reported.text (r : Reported) : String :=
  match r.note with
  | none => ""
  | some s => if r.kind = .key then Text.quote s else s

/-- **Why a command could not be run.** -/
inductive CommandFault
  /-- There is no command. -/
  | empty
  /-- The path of the executable leads nowhere. -/
  | missing (executable : String)
  /-- The search path has no executable of that name. -/
  | unknown (executable : String)
  /-- The system reported a fault. -/
  | reported (r : Reported)
  /-- What the command wrote is no text. -/
  | undecodable (f : Text.DecodeFault)
  deriving DecidableEq, Repr

namespace CommandFault

/-- The kind of a failed command. -/
def kind : CommandFault → FaultKind
  | empty => .value
  | missing _ => .absent
  | unknown _ => .absent
  | reported r => r.kind
  | undecodable _ => .undecodable

/-- The wording about a failed command. -/
def text : CommandFault → String
  | empty => "subprocess command requires at least one argument"
  | missing executable => "Executable '" ++ executable ++ "' does not exist"
  | unknown executable => "Executable '" ++ executable ++ "' was not found on PATH"
  | reported r => r.text
  | undecodable f => f.message

end CommandFault

/-- **Why a tool gave nothing to work with.** -/
inductive ToolCause
  /-- It was not started. -/
  | unstarted (why : CommandFault)
  /-- The linter ended with a status that means failure. -/
  | lintStatus (status : Int)
  /-- The linter printed no report. -/
  | noReport (status : Int)
  /-- The linter printed something that is no report. -/
  | unreadable (why : Report.Unreadable)
  /-- The provenance of a file was refused. -/
  | noProvenance (file : String) (status : Int)
  /-- The list of changed files was refused. -/
  | noChanges (status : Int)
  deriving DecidableEq, Repr

/-- **A tool's failure.** -/
structure ToolFault where
  /-- Why there is nothing to work with. -/
  cause : ToolCause
  /-- The command that was asked for, when it is known. -/
  command : List String := []
  /-- What it wrote to its error stream, when it is known. -/
  errors : Option String := none
  deriving DecidableEq, Repr

/-- What a failed tool said in its error stream, or else a note of its status. -/
def ToolFault.detail (t : ToolFault) (note : String) : String :=
  (Text.trimmed? (t.errors.getD "")).getD note

/-- The wording about a failed tool. -/
def ToolFault.text (t : ToolFault) : String :=
  match t.cause with
  | .unstarted why => why.text
  | .lintStatus status => "phpcs failed with status " ++ toString status
  | .noReport status => "phpcs exited with status " ++ toString status ++ " without a report"
  | .unreadable why => "phpcs produced an unreadable report: " ++ why.message
  | .noProvenance file status =>
    "git blame failed for " ++ file ++ ": " ++ t.detail ("exit status " ++ toString status)
  | .noChanges status => "git diff failed: " ++ t.detail (toString status)

/-- Why a file cannot be read. -/
inductive FileFault
  | absent
  | folder
  | denied
  deriving DecidableEq, Repr

/-- The wording about a file that cannot be read. -/
def FileFault.message (path : Path) (f : FileFault) : String :=
  let reason := match f with
    | .absent => "[Errno 2] No such file or directory: "
    | .folder => "[Errno 21] Is a directory: "
    | .denied => "[Errno 13] Permission denied: "
  reason ++ Text.quote path.toString

/-- **Why the program is not set up.** -/
inductive SetupFault
  /-- The linter's path is not given. -/
  | noLinter
  /-- Neither a base revision nor an event is given. -/
  | noEvent
  /-- The event cannot be read. -/
  | eventAccess (path : Path) (why : FileFault)
  /-- The event is no JSON document. -/
  | eventText (path : Path) (flaw : Json.Flaw) (place : Json.Place)
  /-- The event is not that of a proposed change. -/
  | eventShape (i : Invalid)
  /-- The settings are refused. -/
  | settings (i : Invalid)
  deriving DecidableEq, Repr

/-- The wording about a failed setup. -/
def SetupFault.text : SetupFault → String
  | noLinter => "Input required and not supplied: phpcs_path"
  | noEvent => "No event payload available; set GITHUB_EVENT_PATH or pass --base-sha"
  | eventAccess path why =>
    "Cannot read event payload " ++ path.toString ++ ": " ++ why.message path
  | eventText path flaw place =>
    "Event payload " ++ path.toString ++ " is not valid JSON: " ++
      (Json.ReadFault.flawed flaw place).message
  | eventShape i => "Event payload has no pull_request.base.sha: " ++ i.message
  | settings i => "Invalid configuration: " ++ i.message

/-- **A fault.** -/
inductive Fault
  /-- A command could not be run. -/
  | command (f : CommandFault)
  /-- A tool gave nothing to work with. -/
  | tool (t : ToolFault)
  /-- The program is not set up. -/
  | setup (f : SetupFault)
  /-- A file's bytes are no text. -/
  | undecodable (f : Text.DecodeFault)
  /-- A numeral has too many digits. -/
  | numeral (digits : Nat)
  /-- A document has a bracket that is nested too deeply. -/
  | nesting (b : Json.Bracket)
  /-- A value is not the record it should be. -/
  | record (i : Invalid)
  /-- Something outside the program reported a fault. -/
  | reported (r : Reported)
  deriving DecidableEq, Repr

namespace Fault

/-- The kind of a fault. -/
def kind : Fault → FaultKind
  | command f => f.kind
  | tool _ => .tool
  | setup _ => .configuration
  | undecodable _ => .undecodable
  | numeral _ => .value
  | nesting _ => .nesting
  | record _ => .record
  | reported r => r.kind

/-- **The wording of a fault.** -/
def text : Fault → String
  | command f => f.text
  | tool t => t.text
  | setup f => f.text
  | undecodable f => f.message
  | numeral digits => Text.tooManyDigits digits
  | nesting b => b.message
  | record i => i.message
  | reported r => r.text

/-- **The fault of a linter whose document gives no report.** A document that is nested too deeply
is a fault of its own. -/
def ofUnreadable : Report.Unreadable → Fault
  | .text (.nesting b) => nesting b
  | why => tool { cause := .unreadable why }

/-- **The reason a fault gives for a failure**: its text, or the name of its kind. -/
def reason (f : Fault) : String := if f.text = "" then f.kind.name else f.text

/-- A fault that a review records as its own failure; only an interruption is none. -/
def isRecorded (f : Fault) : Bool := f.kind != .interrupt

/-- **A fault that the program announces**: it is not set up, or a tool gave it nothing. -/
def isAnnounced (f : Fault) : Bool := f.kind == .tool || f.kind == .configuration

/-- What is said of an iteration that ran into the end of another one. -/
def overrun : String := "generator raised StopIteration"

/-- **A fault as an iteration passes it on.** One that says that an iteration is over becomes a
fault at run time, and its own text is lost. -/
def passedOn (f : Fault) : Fault :=
  if f.kind.isExhausted then .reported ⟨.runtime, some overrun⟩ else f

theorem passedOn_of_isExhausted {f : Fault} (h : f.kind.isExhausted = true) :
    f.passedOn = .reported ⟨.runtime, some overrun⟩ := if_pos h

theorem passedOn_of_not_isExhausted {f : Fault} (h : f.kind.isExhausted = false) :
    f.passedOn = f := if_neg (by simp [h])

/-- Whether a fault is recorded does not depend on iterations. -/
@[simp] theorem isRecorded_passedOn (f : Fault) : f.passedOn.isRecorded = f.isRecorded := by
  cases h : f.kind.isExhausted with
  | false => rw [passedOn_of_not_isExhausted h]
  | true =>
    have hkind : f.kind ≠ .interrupt := by
      intro hk
      rw [hk] at h
      cases h
    rw [passedOn_of_isExhausted h, isRecorded, isRecorded, bne_iff_ne.2 hkind]
    rfl

/-- No fault goes without a reason. -/
theorem reason_ne_empty (f : Fault) : f.reason ≠ "" := by
  unfold reason
  split
  · exact f.kind.name_ne_empty
  · assumption

end Fault

end LintGate
