import LintGate.Changes
import LintGate.Settings.Load
import LintGate.Workflow

/-!
# Invocations

An invocation is what a command line asks for. The one command is `run`; behind it options and
files may be mixed, and `--` makes files of everything that follows. An option's value is the next
argument, whatever it looks like, or follows an equals sign, and the short option may have it right
behind its letter. Of an option that is given twice the last value counts, and patterns add up. An
option that is not given may have its value in the environment, where an empty one is none.
-/

namespace LintGate

/-- **Why a command line asks for nothing.** -/
inductive UsageFault
  /-- There is no command. -/
  | noCommand
  /-- The command is unknown. -/
  | unknownCommand (name : String)
  /-- The option is unknown. -/
  | unknownOption (name : String)
  /-- The option has no value. -/
  | valueMissing (name : String)
  /-- The option takes no value. -/
  | valueRefused (name : String)
  /-- The number of jobs is none, or too small. -/
  | jobs (value : String)
  deriving DecidableEq, Repr

/-- The wording about a command line. -/
def UsageFault.message : UsageFault → String
  | noCommand => "Missing command."
  | unknownCommand name => "No such command " ++ Text.quote name ++ "."
  | unknownOption name => "No such option: " ++ name
  | valueMissing name => "Option " ++ Text.quote name ++ " requires an argument."
  | valueRefused name => "Option " ++ Text.quote name ++ " does not take a value."
  | jobs value => "Invalid value for '--jobs': " ++ Text.quote value

/-- **The options that take a value.** -/
inductive Valued
  | linter
  | standard
  | strictness
  | base
  | event
  | jobs
  | pattern
  | root
  deriving DecidableEq, Repr

/-- The options that take a value, by name. -/
def Valued.names : List (String × Valued) := [
  ("--phpcs-path", .linter), ("--standard", .standard), ("--fail-on-warnings", .strictness),
  ("--base-sha", .base), ("--event-path", .event), ("--jobs", .jobs), ("--pattern", .pattern),
  ("--root", .root)]

/-- The options that take none, by name: whether there are symbols. -/
def flagNames : List (String × Bool) := [("--emoji", true), ("--no-emoji", false)]

/-- The short option. -/
def shortJobs : Char := 'j'

/-- **What the arguments give**, not looked at any further. -/
structure Arguments where
  /-- The options with their values, as given. -/
  values : List (Valued × String) := []
  /-- The files. -/
  files : List String := []
  /-- Whether there are symbols, if that is said. -/
  symbols : Option Bool := none
  deriving DecidableEq, Repr

namespace Arguments

/-- One option more. -/
def withValue (a : Arguments) (o : Valued) (value : String) : Arguments :=
  { a with values := a.values ++ [(o, value)] }

/-- Some files more. -/
def withFiles (a : Arguments) (fs : List String) : Arguments := { a with files := a.files ++ fs }

/-- The values of an option, in the order in which they are given. -/
def valuesOf (a : Arguments) (o : Valued) : List String :=
  a.values.filterMap fun (p, value) => if p = o then some value else none

/-- The value of an option: the last one counts. -/
def value? (a : Arguments) (o : Valued) : Option String := (a.valuesOf o).getLast?

/-- **What one argument is.** -/
inductive Token
  /-- Everything behind it is a file. -/
  | rest
  /-- A file. -/
  | file
  /-- An option, with its value if that is part of the argument. -/
  | valued (o : Valued) (value : Option String)
  /-- An option without a value. -/
  | flag (symbols : Bool)
  /-- Nothing known. -/
  | wrong (f : UsageFault)
  deriving DecidableEq, Repr

/-- The name of a long option, and what follows the first equals sign. -/
def splitEquals (arg : String) : String × Option String :=
  let name := arg.toList.takeWhile (· != '=')
  (String.ofList name,
    match arg.toList.dropWhile (· != '=') with
    | _ :: value => some (String.ofList value)
    | [] => none)

/-- An argument that begins with a hyphen and is not a long option. -/
def shortToken (arg : String) : Token :=
  match arg.toList with
  | _ :: c :: value =>
    if c = shortJobs then
      .valued .jobs (if value = [] then none else some (String.ofList value))
    else .wrong (.unknownOption (String.ofList ['-', c]))
  | _ => .wrong (.unknownOption arg)

/-- **What an argument is.** A lone hyphen is a file. -/
def token (arg : String) : Token :=
  if arg = "--" then .rest
  else if arg = "-" || !arg.toList.head?.isEqSome '-' then .file
  else
    let (name, value) := splitEquals arg
    match Valued.names.lookup name, flagNames.lookup name, value with
    | some o, _, value => .valued o value
    | none, some symbols, none => .flag symbols
    | none, some _, some _ => .wrong (.valueRefused name)
    | none, none, _ =>
      if ['-', '-'].isPrefixOf arg.toList then .wrong (.unknownOption name) else shortToken arg

/-- **The arguments, taken one after the other.** -/
def take (a : Arguments) : List String → Except UsageFault Arguments
  | [] => .ok a
  | arg :: rest =>
    match token arg with
    | .rest => .ok (a.withFiles rest)
    | .file => take (a.withFiles [arg]) rest
    | .flag symbols => take { a with symbols := some symbols } rest
    | .valued o (some value) => take (a.withValue o value) rest
    | .valued o none =>
      match rest with
      | value :: rest => take (a.withValue o value) rest
      | [] => .error (.valueMissing arg)
    | .wrong f => .error f

end Arguments

/-- **An invocation.** -/
structure Invocation where
  /-- The inputs that make the settings. -/
  inputs : Settings.Inputs := {}
  /-- The files to lint; none means those that the change touches. -/
  files : List String := []
  /-- The patterns that these must match. -/
  patterns : List String := Changes.defaultPatterns
  /-- Status lines have symbols. -/
  symbols : Bool := true
  deriving Repr

namespace Invocation

/-- The number of jobs: one unless it is given, and at least one. -/
def jobsOf (value : Option String) : Except UsageFault Nat :=
  match value with
  | none => .ok 1
  | some s => (Settings.jobCount (.str s)).mapError fun _ => .jobs s

/-- A variable's value, if it has one that is not empty. -/
def valueIn (environment : Table String String) (name : String) : Option String :=
  (environment.get? name).filter (· != "")

/-- The environment variables of the options that have one. -/
def inputName? : Valued → Option String
  | .linter => some (Workflow.inputVariable "phpcs_path")
  | .standard => some (Workflow.inputVariable "standard")
  | .strictness => some (Workflow.inputVariable "fail_on_warnings")
  | .event => some Workflow.eventVariable
  | _ => none

/-- The value of an option, from the arguments or else from the environment. -/
def valueOf (environment : Table String String) (a : Arguments) (o : Valued) : Option String :=
  a.value? o <|> (inputName? o).bind (valueIn environment)

/-- The patterns given, or those used when none are. -/
def patternsOf (given : List String) : List String :=
  if given = [] then Changes.defaultPatterns else given

/-- The invocation that arguments make. -/
def ofArguments (environment : Table String String) (a : Arguments) :
    Except UsageFault Invocation := do
  let value := valueOf environment a
  let jobs ← jobsOf (value .jobs)
  return {
    inputs := {
      linter := value .linter
      standard := value .standard
      strictness := value .strictness
      base := value .base
      event := (value .event).map Path.ofString
      jobs := .int jobs
      root := some ((value .root).elim Path.current Path.ofString).resolved }
    files := a.files
    patterns := patternsOf (a.valuesOf .pattern)
    symbols := a.symbols.getD true }

/-- **The invocation that a command line makes.** -/
def ofCommandLine (environment : Table String String) (arguments : List String) :
    Except UsageFault Invocation :=
  match arguments with
  | [] => .error .noCommand
  | first :: rest =>
    let arguments := if first = "--" then rest else arguments
    match arguments with
    | "run" :: rest => (({} : Arguments).take rest).bind (ofArguments environment)
    | [] => .error .noCommand
    | name :: _ => .error (.unknownCommand name)

end Invocation

end LintGate
