import LintGate.Host
import LintGate.Text.Blank
import LintGate.Text.Glob

/-!
# The files a change touches

The version control system lists the files that were added or modified since the base revision,
one name per line. Of these the ones are linted that match a pattern, by their whole name or by its
last part, and that are still there as regular files. The order is that of the list. The names come
out of an iteration, and so does the fault of a command that cannot be run.
-/

namespace LintGate.Changes

/-- The patterns that are used when none are given. -/
def defaultPatterns : List String := ["*.php"]

/-- **The command that lists the files changed since a revision.** -/
def command (base : String) : List String :=
  ["git", "diff", "--name-only", "--diff-filter=AM", base, "HEAD", "--"]

/-- A name matches one of the patterns, whole or by its last part. -/
def isWanted (patterns : List String) (name : String) : Bool :=
  let last := (Path.ofString name).name
  patterns.any fun p =>
    Text.Glob.matches p name || Text.Glob.matches p last

/-- **The names in a printed list**: its lines without the blanks around them, blank ones left
out. -/
def namesOf (command : List String) (f : Finished) : Except Fault (List String) :=
  if f.status = 0 then .ok ((Text.lines f.outputText).filterMap Text.trimmed?)
  else .error (.tool { cause := .noChanges f.status, command, errors := f.errors })

/-- **The changed files to lint** under a root directory. -/
def discover (h : Host) (run : Runner) (base : String) (root : Path) (patterns : List String) :
    Attempt (List String) :=
  let command := command base
  (run command (some root)).passedOn >>= fun f => .ofResult <|
    (namesOf command f).map fun names =>
      names.filter fun n => isWanted patterns n && h.isFile (root.join (.ofString n))

end LintGate.Changes
