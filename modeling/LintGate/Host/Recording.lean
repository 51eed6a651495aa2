import LintGate.Host
import LintGate.Json.Reader
import LintGate.Schema

/-!
# Recorded hosts

A host can be written down as a document: its files, its search path, and what the linter and the
version control system answered. A run against a recording starts no process and always goes the
same way.

The document is an object. `files` maps paths to contents: a text, or an object with `text`,
`text_hex`, `dir` or `denied`. `which` maps names to executables. `phpcs` and `git_diff` are
replies, and `git_blame` maps file names to replies. A reply has `code`, `stdout` and `stderr` (or
`stdout_hex` and `stderr_hex`), or it is a fault under `raise`: the name of its kind and its text.
Everything may be left out.
-/

namespace LintGate

open Schema

/-- **A recorded stream.** -/
inductive Stream
  /-- It was not kept. -/
  | absent
  /-- It was kept as text. -/
  | text (s : String)
  /-- It was kept as bytes. -/
  | bytes (bs : List UInt8)
  deriving DecidableEq, Repr

/-- The bytes of a recorded stream; none if it was not kept. -/
def Stream.toBytes : Stream → List UInt8
  | absent => []
  | text s => s.toUTF8.toList
  | bytes bs => bs

/-- The text of a recorded stream. -/
def Stream.toText : Stream → Option String
  | absent => none
  | text s => some s
  | bytes bs => (Host.textOf .utf8 .replace bs).toOption

/-- **A recorded host.** -/
structure Recording where
  /-- The files, by path. -/
  files : Table String Content := []
  /-- The executables on the search path, by name. -/
  executables : Table String String := []
  /-- What the linter answers. -/
  lint : Reply Stream := .finished 0 (.text "") (.text "")
  /-- What the version control system answers when asked for changes. -/
  changes : Reply Stream := .finished 0 (.text "") (.text "")
  /-- What it answers when asked for the provenance of a file. -/
  blame : Table String (Reply Stream) := []

namespace Recording

/-! ## Reading recordings -/

/-- The kinds of faults that a reply may name. -/
def reportedKinds : List (String × FaultKind) :=
  [FaultKind.runtime, .value, .key, .system, .absent, .permission, .interrupt, .tool,
    .configuration, .iterationOver].map fun k => (k.name, k)

/-- The bytes that pairs of hexadecimal digits write. -/
def bytesOfHex : List Char → Option (List UInt8)
  | [] => some []
  | a :: b :: r => do
    let hi ← Json.hexValue? a
    let lo ← Json.hexValue? b
    return UInt8.ofNat (16 * hi + lo) :: (← bytesOfHex r)
  | [_] => none

/-- Bytes in hexadecimal. -/
def hex (j : Json) : Checked (List UInt8) :=
  match text j with
  | .ok s => match bytesOfHex s.toList with
    | some bs => .ok bs
    | none => .fail .refused
  | .error ps => .error ps

/-- What a file holds. -/
def content : Json → Checked Content
  | .str s => .ok (.bytes s.toUTF8.toList)
  | j =>
    match j.member? "text", j.member? "text_hex", j.member? "dir", j.member? "denied" with
    | some t, _, _, _ => (text t).map fun (s : String) => .bytes s.toUTF8.toList
    | _, some t, _, _ => (hex t).map .bytes
    | _, _, some _, _ => .ok .folder
    | _, _, _, some _ => .ok .denied
    | _, _, _, _ => .fail .notRecord

/-- A stream under its name, or in hexadecimal under the name with `_hex` behind. -/
def stream (ms : Table String Json) (name : String) : Checked Stream :=
  match ms.get? (name ++ "_hex") with
  | some j => Checked.under (.key (name ++ "_hex")) ((hex j).map Stream.bytes)
  | none =>
    optional ms name (.text "") fun
      | .null => .ok .absent
      | j => (text j).map .text

/-- A fault: the name of its kind, and its text or nothing. -/
def reported : Json → Checked Reported
  | .arr [kind, note] =>
    ((Checked.make Reported.mk).and ((listed reportedKinds kind).under (.index 0))).and
      ((optionalText note).under (.index 1))
  | _ => .fail .notTuple

/-- **A reply.** -/
def reply : Json → Checked (Reply Stream) :=
  record fun ms =>
    match ms.get? "raise" with
    | some j => Checked.under (.key "raise") ((reported j).map Reply.reported)
    | none =>
      (((Checked.make Reply.finished).and (optional ms "code" 0 integer)).and
        (stream ms "stdout")).and (stream ms "stderr")

/-- **The host that a document records.** -/
def ofJson : Json → Checked Recording :=
  record fun ms =>
    let silence : Reply Stream := .finished 0 (.text "") (.text "")
    (((((Checked.make Recording.mk).and
      (optional ms "files" [] (tableOf fun _ => content))).and
      (optional ms "which" [] (tableOf fun _ => text))).and
      (optional ms "phpcs" silence reply)).and
      (optional ms "git_diff" silence reply)).and
      (optional ms "git_blame" [] (tableOf fun _ => reply))

/-! ## Running against recordings -/

/-- The reply about a file that the version control system does not know. -/
def unknownFile (file : String) : Reply Stream :=
  .finished 128 (.text "") (.text ("fatal: no such path '" ++ file ++ "' in HEAD\n"))

/-- The executable is the version control system. -/
def isVersionControl (r : Recording) (executable : String) : Bool :=
  executable = "git" || r.executables.get? "git" = some executable

/-- **What a command is answered.** -/
def answer (r : Recording) (command : List String) : Reply Stream :=
  match command with
  | executable :: task :: rest =>
    if r.isVersionControl executable then
      if task = "diff" then r.changes
      else if task = "blame" then
        let file := rest.getLastD task
        (r.blame.get? file).getD (unknownFile file)
      else r.lint
    else r.lint
  | _ => r.lint

/-- The recording as a host whose commands write bytes. -/
def host (r : Recording) : Host where
  files := r.files
  executables := r.executables
  answer command :=
    match r.answer command with
    | .finished status output errors => .finished status output.toBytes errors.toBytes
    | .reported f => .reported f

/-- **The recording as a runner** that starts every command, whatever the search path has, and
hands the recorded texts on. -/
def runner (r : Recording) : Runner := fun command folder =>
  ⟨[⟨command, folder⟩],
    match r.answer command with
    | .finished status output errors => .ok ⟨status, output.toText, errors.toText⟩
    | .reported f => .error (.reported f)⟩

end Recording

end LintGate
