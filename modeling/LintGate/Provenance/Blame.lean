import LintGate.Attempt
import LintGate.Provenance.Porcelain
import LintGate.Text.Lines

/-!
# Asking for provenance

The provenance of a file is asked of the version control system, restricted to a range of
revisions: a line that was last touched at or before the start of the range is attributed to the
revision at its start.
-/

namespace LintGate.Blame

/-- **The command that asks for a file's provenance.** -/
def command (range file : String) : List String :=
  ["git", "blame", "--line-porcelain", range, "--", file]

/-- **The provenance in what the version control system printed.** -/
def provenanceOf (command : List String) (file : String) (f : Finished) :
    Except Fault Provenance :=
  if f.status = 0 then
    (Porcelain.read (Text.lines f.outputText)).mapError .numeral
  else .error (.tool { cause := .noProvenance file f.status, command, errors := f.errors })

/-- **A file's provenance**, asked for in a directory. -/
def blame (run : Runner) (folder : Option Path) (range file : String) : Attempt Provenance :=
  let command := command range file
  run command folder >>= fun f => .ofResult (provenanceOf command file f)

end LintGate.Blame
