import LintGate.Attempt
import LintGate.Table
import LintGate.Text.Lines

/-!
# The host

The host is what the program finds around itself: files, executables that are found by a name, and
the answers of the commands it starts. Files are found by their path as it is written. A command's
answer depends on the command alone.

`Host.readText` reads a file as text, strictly, and with its line ends unified.
-/

namespace LintGate

/-- **What a path leads to.** -/
inductive Content
  /-- A regular file with these bytes. -/
  | bytes (bs : List UInt8)
  /-- A directory. -/
  | folder
  /-- A regular file that must not be read. -/
  | denied
  deriving DecidableEq, Repr

/-- **A command's answer**, with streams of any kind: it finishes, or the system reports a
fault. -/
inductive Reply (α : Type)
  | finished (status : Int) (output errors : α)
  | reported (r : Reported)
  deriving DecidableEq, Repr

/-- **A host.** -/
structure Host where
  /-- The files, by path. -/
  files : Table String Content := []
  /-- The executables that looking up a name finds: those on the search path, and for a name with a
  slash in it what is there in the directory of the process itself. -/
  executables : Table String String := []
  /-- The answer of each command. -/
  answer : List String → Reply (List UInt8) := fun _ => .finished 0 [] []

namespace Host

/-- What a path leads to, if anything. -/
def content? (h : Host) (p : Path) : Option Content := h.files.get? p.toString

/-- The path leads to something. -/
def has (h : Host) (p : Path) : Bool := (h.content? p).isSome

/-- The path leads to a regular file. -/
def isFile (h : Host) (p : Path) : Bool :=
  match h.content? p with
  | some .folder | none => false
  | some _ => true

/-- The bytes of a file. -/
def readBytes (h : Host) (p : Path) : Except FileFault (List UInt8) :=
  match h.content? p with
  | some (.bytes bs) => .ok bs
  | some .folder => .error .folder
  | some .denied => .error .denied
  | none => .error .absent

/-- **Bytes as text**: what does not decode is treated as told, and line ends are unified. -/
def textOf (code : Text.Code) (repair : Text.Repair) (bs : List UInt8) :
    Except Text.DecodeFault String :=
  (Text.decode code repair bs).map fun s => String.ofList (Text.unifyLineEnds s)

end Host

end LintGate
