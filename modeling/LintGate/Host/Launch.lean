import LintGate.Host

/-!
# Launching commands

A command starts with its executable. One that is given by a path, absolute or with more than one
name, is that file, read in the directory the command is to run in, and the search path plays no
part; a bare name is looked up (`Host.executables`), wherever the command is to run. Only then is
the system asked to run the command.

`Host.launch` runs a command and reports whatever goes wrong as it is. `Host.runner` is what the
tools are run with: a command that cannot be started because a file is absent or an access is not
permitted is a tool's failure there.
-/

namespace LintGate.Host

/-- **How a command is run.** -/
structure Options where
  /-- The directory to run in, unless it is the current one. -/
  folder : Option Path := none
  /-- The code of what it writes. -/
  code : Text.Code := .utf8
  /-- What becomes of bytes that are no text. -/
  repair : Text.Repair := .replace
  deriving Repr

/-- The executable is given by a path. -/
def isLocated (executable : String) : Bool := !(Path.ofString executable).isBare

/-- **The executable that a command means**, as the system is asked for it. -/
def locate (h : Host) (folder : Option Path) (executable : String) :
    Except CommandFault String :=
  let path := Path.ofString executable
  if isLocated executable then
    if h.has ((folder.getD .current).join path) then .ok path.toString
    else .error (.missing executable)
  else
    match h.executables.get? executable with
    | some found => .ok found
    | none => .error (.unknown executable)

/-- What a finished command wrote, as text. The output is decoded before the error stream. -/
def finished (options : Options) (status : Int) (output errors : List UInt8) :
    Except CommandFault Finished :=
  match textOf options.code options.repair output with
  | .error f => .error (.undecodable f)
  | .ok out =>
    match textOf options.code options.repair errors with
    | .error f => .error (.undecodable f)
    | .ok err => .ok ⟨status, some out, some err⟩

/-- The commands started for a command, and how it ended. -/
def attempt (h : Host) (options : Options) :
    List String → List Call × Except CommandFault Finished
  | [] => ([], .error .empty)
  | executable :: arguments =>
    match h.locate options.folder executable with
    | .error f => ([], .error f)
    | .ok found =>
      let command := found :: arguments
      ([⟨command, options.folder⟩],
        match h.answer command with
        | .reported r => .error (.reported r)
        | .finished status output errors => finished options status output errors)

/-- **A command run.** -/
def launch (h : Host) (options : Options) (command : List String) : Attempt Finished :=
  let (calls, result) := h.attempt options command
  ⟨calls, result.mapError .command⟩

/-- The command could not be started, for want of a file or of a permission. -/
def isUnstarted (f : CommandFault) : Bool := f.kind == .absent || f.kind == .permission

/-- The fault of a command that was run as a tool. -/
def toolFault (command : List String) (f : CommandFault) : Fault :=
  if isUnstarted f then .tool { cause := .unstarted f, command := command } else .command f

/-- **A tool run in a directory.** -/
def runner (h : Host) : Runner := fun command folder =>
  let (calls, result) := h.attempt { folder } command
  ⟨calls, result.mapError (toolFault command)⟩

/-- An executable that is given by a path is that path or nothing. -/
theorem locate_of_isLocated {h : Host} {folder : Option Path} {executable : String}
    (hl : isLocated executable = true) :
    h.locate folder executable =
      if h.has ((folder.getD .current).join (.ofString executable)) then
        .ok (Path.ofString executable).toString
      else .error (.missing executable) := by
  simp [locate, hl]

/-- A bare name is looked up, and the files of the host play no part. -/
theorem locate_of_not_isLocated {h : Host} {folder : Option Path} {executable : String}
    (hl : isLocated executable = false) :
    h.locate folder executable = (h.executables.get? executable).elim
      (.error (.unknown executable)) .ok := by
  cases hg : h.executables.get? executable <;> simp [locate, hl, hg]

/-- An executable that is not located is absent. -/
theorem kind_of_locate {h : Host} {folder : Option Path} {executable : String}
    {why : CommandFault} (hw : h.locate folder executable = .error why) : why.kind = .absent := by
  cases hl : isLocated executable with
  | true =>
    rw [locate_of_isLocated hl] at hw
    split at hw
    · cases hw
    · cases hw
      rfl
  | false =>
    rw [locate_of_not_isLocated hl] at hw
    cases hg : h.executables.get? executable with
    | some found =>
      rw [hg] at hw
      cases hw
    | none =>
      rw [hg] at hw
      cases hw
      rfl

/-- What a finished command wrote can only fail to be text. -/
theorem exists_of_finished {options : Options} {status : Int} {output errors : List UInt8}
    {why : CommandFault} (hw : finished options status output errors = .error why) :
    ∃ f, why = .undecodable f := by
  unfold finished at hw
  split at hw
  next f _ =>
    cases hw
    exact ⟨f, rfl⟩
  next =>
    split at hw
    next f _ =>
      cases hw
      exact ⟨f, rfl⟩
    next => cases hw

end LintGate.Host
