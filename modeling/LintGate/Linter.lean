import LintGate.Attempt
import LintGate.Text.Blank

/-!
# Running the linter

The linter gets its options and the files, and prints a report. It ends with status one or two when
it has findings, and these carry a report; a higher status means that it failed, whatever it
printed. A report that is missing or that cannot be read is a failure too, so a failed linter is
never taken for one without findings.
-/

namespace LintGate.Linter

/-- The argument that asks for a report. -/
def reportFlag : String := "--report=json"

/-- The highest status of a linter that did not fail. -/
def highestStatus : Int := 2

/-- An option as an argument. -/
def optionArgument (option : String × String) : String :=
  "--" ++ option.1 ++ "=" ++ option.2

/-- **The command that lints some files.** -/
def command (linter : Path) (options : Table String String) (files : List String) :
    List String :=
  linter.toString :: reportFlag :: options.map optionArgument ++ files

/-- **The report of a linter that finished.** -/
def reportOf (command : List String) (f : Finished) : Except Fault Report :=
  if highestStatus < f.status then
    .error (.tool { cause := .lintStatus f.status, command, errors := f.errors })
  else
    match Text.trimmed? f.outputText with
    | none => .error (.tool { cause := .noReport f.status, command, errors := f.errors })
    | some document =>
      (Report.parse document).mapError .ofUnreadable

/-- **Files linted** in a directory. Without files nothing is run, and nothing is found. -/
def lint (run : Runner) (folder : Option Path) (linter : Path) (options : Table String String)
    (files : List String) : Attempt Report :=
  match files with
  | [] => .done {}
  | files =>
    let command := command linter options files
    run command folder >>= fun f => .ofResult (reportOf command f)

end LintGate.Linter
