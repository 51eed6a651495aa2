import LintGate.Report
import LintGate.Json.Reader

/-!
# The linter's report document

The linter prints its report as a JSON document: an object with `totals` and, under `files`, one
object per file whose `messages` are the findings. A finding is labelled by `type`; members that
are not asked for are ignored.

Reading is done in two rounds. First the shape of the whole document is checked, and everything
wrong with it is told at once. Then the findings are made one by one, in the order of the
document, and the first whose label names no severity, or whose place is none, ends the reading.
So a document either yields every finding it holds or no report at all.
-/

namespace LintGate

open Schema

namespace Report

/-- A message as the document gives it. -/
structure Message where
  /-- What it says. -/
  message : String
  /-- The rule that made it. -/
  source : String
  /-- The label of its severity. -/
  label : String
  /-- The line it names. -/
  line : Int
  /-- The column it names. -/
  column : Int
  deriving DecidableEq, Repr

/-- The message an object gives. -/
def Message.ofJson : Json → Checked Message :=
  record fun ms =>
    (((((Checked.make Message.mk).and (required ms "message" text)).and
      (optional ms "source" "" text)).and
      (required ms "type" text)).and
      (required ms "line" integer)).and
      (required ms "column" integer)

/-- The shape of a document: totals, and the messages of each file. -/
structure Document where
  /-- The counts. -/
  totals : Totals
  /-- The messages of each file. -/
  files : Table String (List Message)
  deriving DecidableEq, Repr

/-- The messages of one file. -/
def messagesOfJson : Json → Checked (List Message) :=
  record fun ms => optional ms "messages" [] (listOf .notList Message.ofJson)

/-- The shape a document has. -/
def Document.ofJson : Json → Checked Document :=
  record fun ms =>
    ((Checked.make Document.mk).and (required ms "totals" Totals.ofJson)).and
      (optional ms "files" [] (tableOf fun _ => messagesOfJson))

/-- **Why a document gives no report.** -/
inductive Unreadable
  /-- It is no JSON document. -/
  | text (f : Json.ReadFault)
  /-- It does not have the shape of a report, or a finding has no place in its file. -/
  | shape (i : Invalid)
  /-- A label names no severity. -/
  | severity (label : String)
  deriving DecidableEq, Repr

/-- The wording of a reason. -/
def Unreadable.message : Unreadable → String
  | .text f => f.message
  | .shape i => i.message
  | .severity label => "unknown severity '" ++ label ++ "'"

/-- **The finding a message of a file gives.** The label is read before the place is checked. -/
def Message.finding (file : String) (m : Message) : Except Unreadable Finding :=
  match Severity.ofLabel? m.label with
  | none => .error (.severity m.label)
  | some severity =>
    match (Finding.checked file m.line m.column severity m.message m.source).named
        Finding.recordName with
    | .ok f => .ok f
    | .error i => .error (.shape i)

/-- The findings of the files, made one by one. -/
def Document.findings (d : Document) : Except Unreadable (Table String (List Finding)) :=
  d.files.mapM fun (file, ms) => do
    return (file, ← ms.mapM (Message.finding file))

/-- The report of a document that was read as JSON. -/
def ofDocument (j : Json) : Except Unreadable Report :=
  match (Document.ofJson j).named "_PhpcsReport" with
  | .error i => .error (.shape i)
  | .ok d =>
    match d.findings with
    | .error why => .error why
    | .ok files => .ok ⟨d.totals, files⟩

/-- **The report that a document's text gives.** -/
def parse (document : String) : Except Unreadable Report :=
  match Json.read document with
  | .error f => .error (.text f)
  | .ok j => ofDocument j

end Report

end LintGate
