import LintGate.Proofs.Host.Executables
import LintGate.Proofs.Program.Protocol

/-!
# Commands that cannot be started

A command cannot be started when its executable is not located, or when the system refuses it. That
should be the tool's failure wherever the command is run as a tool, with the command that was asked
for, and a run that cannot even list the changed files for that reason should announce it
(`Surfaces`). What becomes of the fault is decided in one place, where a tool is run, and there by
the fault's kind: an absent file and a missing permission are told as a tool's failure, and every
other refusal of the system is passed on as it is. All sources hand on what the runner gives, also
the one that lists the changed files in an iteration, for no refusal ends that. So `surfaces_iff`
says that it depends on nothing else, and that the other refusals escape from the program
(`Escapes`).
-/

namespace LintGate

/-- **The kinds of refusals by the system.** A kind that nothing depends on may be one. -/
inductive FaultKind.IsRefusal : FaultKind → Prop
  | system : IsRefusal .system
  | absent : IsRefusal .absent
  | permission : IsRefusal .permission
  | other (name : String) (named : name ≠ "") : IsRefusal (.other name named)

/-- A refusal is nothing that the program announces, and no interruption. -/
theorem FaultKind.IsRefusal.silent {k : FaultKind} (hk : k.IsRefusal) :
    k ≠ .tool ∧ k ≠ .configuration ∧ k ≠ .interrupt := by
  cases hk <;> exact ⟨nofun, nofun, nofun⟩

/-- A refusal does not end an iteration. -/
theorem FaultKind.IsRefusal.not_isExhausted {k : FaultKind} (hk : k.IsRefusal) :
    k.isExhausted = false := by
  cases hk <;> rfl

/-- **A command cannot be started**: its executable is not located, or the system refuses it. -/
inductive Host.CannotStart (h : Host) (folder : Option Path) : List String → CommandFault → Prop
  | unlocated {executable : String} {arguments : List String} {why : CommandFault}
      (absent : h.locate folder executable = .error why) :
      CannotStart h folder (executable :: arguments) why
  | refused {executable found : String} {arguments : List String} {r : Reported}
      (located : h.locate folder executable = .ok found)
      (answer : h.answer (found :: arguments) = .reported r) (refusal : r.kind.IsRefusal) :
      CannotStart h folder (executable :: arguments) (.reported r)

/-- **An invocation whose run begins with a command** in a directory: it lists the changed files by
it. -/
def Invocation.BeginsWith (i : Invocation) (h : Host) (folder : Option Path)
    (command : List String) : Prop :=
  i.files = [] ∧ ∃ s, Settings.load h i.inputs = .ok s ∧ folder = some s.root ∧
    command = Changes.command s.base

namespace Program

variable {h : Host} {folder : Option Path} {command : List String} {why : CommandFault}
  {f : Fault}

/-! ## Wherever a tool is run -/

/-- **A command ends in a fault wherever it is run as a tool.** -/
structure EndsIn (h : Host) (folder : Option Path) (command : List String) (f : Fault) :
    Prop where
  runner : (h.runner command folder).result = .error f
  lint (linter : Path) (options : Table String String) (files : List String) (given : files ≠ [])
    (linting : command = Linter.command linter options files) :
    (Linter.lint h.runner folder linter options files).result = .error f
  blame (range file : String) (asking : command = Blame.command range file) :
    (Blame.blame h.runner folder range file).result = .error f
  discover (base : String) (root : Path) (patterns : List String) (rooted : folder = some root)
    (listing : command = Changes.command base) :
    (Changes.discover h h.runner base root patterns).result = .error f

/-- The sources hand on the fault of the runner, unless it ends the iteration over the changed
files. -/
theorem endsIn_of_runner (hf : (h.runner command folder).result = .error f)
    (hk : f.kind.isExhausted = false) : EndsIn h folder command f where
  runner := hf
  lint linter options files hfiles hcommand := by
    subst hcommand
    cases files with
    | nil => exact absurd rfl hfiles
    | cons file files => exact congrArg Attempt.result (Attempt.bind_of_error hf _)
  blame range file hcommand := by
    subst hcommand
    exact congrArg Attempt.result (Attempt.bind_of_error hf _)
  discover base root patterns hfolder hcommand := by
    subst hfolder hcommand
    have hpassed : (h.runner (Changes.command base) (some root)).passedOn.result = .error f :=
      Attempt.result_passedOn_eq_error_iff.2 ⟨f, hf, Fault.passedOn_of_not_isExhausted hk⟩
    exact congrArg Attempt.result (Attempt.bind_of_error hpassed _)

/-- A run that cannot list the changed files does not begin. -/
theorem run_eq_notBegun {i : Invocation} (hi : i.BeginsWith h folder command)
    (hf : (h.runner command folder).result = .error f) (hk : f.kind.isExhausted = false) :
    ∃ calls, run h i = notBegun calls f := by
  obtain ⟨hfiles, s, hload, hfolder, hcommand⟩ := hi
  have htargets : (targets h i s).result = .error f := by
    rw [targets, if_pos hfiles]
    exact (endsIn_of_runner hf hk).discover s.base s.root i.patterns hfolder hcommand
  refine ⟨(targets h i s).calls, ?_⟩
  rw [run, begin_of_load hload, htargets]
  rfl

/-! ## The fault of a command that cannot be started -/

/-- **The fault surfaces**: wherever the command is run as a tool, it is the tool's failure with the
command that was asked for, and a run that begins with the command says it as an error and exits
with a failure. -/
structure Surfaces (h : Host) (folder : Option Path) (command : List String)
    (why : CommandFault) : Prop where
  tool : EndsIn h folder command (.tool { cause := .unstarted why, command })
  run (i : Invocation) (begins : i.BeginsWith h folder command) :
    ∃ calls, Program.run h i = {
      exit := failure
      said := [.debug Review.faultLog, .error why.text, .status .fail why.text]
      calls }

/-- **The fault escapes**: wherever the command is run as a tool, it is passed on as it is, and it
leaves a run that begins with the command, which says nothing. -/
structure Escapes (h : Host) (folder : Option Path) (command : List String)
    (why : CommandFault) : Prop where
  tool : EndsIn h folder command (.command why)
  run (i : Invocation) (begins : i.BeginsWith h folder command) :
    ∃ calls, Program.run h i = {
      exit := failure
      said := []
      calls
      fault := some (.command why) }

/-- Nothing surfaces and escapes. -/
theorem Surfaces.not_escapes (hs : Surfaces h folder command why) :
    ¬Escapes h folder command why := by
  intro he
  have hrunner := hs.tool.runner
  rw [he.tool.runner] at hrunner
  cases hrunner

/-- A command that cannot be started ends in that fault. -/
theorem attempt_of_cannotStart (hw : h.CannotStart folder command why) :
    (h.attempt { folder } command).2 = .error why := by
  cases hw with
  | unlocated absent => simp [Host.attempt, absent]
  | refused located answer refusal => simp [Host.attempt, located, answer]

theorem runner_of_cannotStart (hw : h.CannotStart folder command why) :
    (h.runner command folder).result = .error (Host.toolFault command why) := by
  show (h.attempt { folder } command).2.mapError _ = _
  rw [attempt_of_cannotStart hw]
  rfl

/-- What keeps a command from being started is no interruption, and nothing that is announced. -/
theorem isRefusal_of_cannotStart (hw : h.CannotStart folder command why) :
    why.kind.IsRefusal := by
  cases hw with
  | unlocated absent => exact Host.kind_of_locate absent ▸ .absent
  | refused located answer refusal => exact refusal

/-- A refusal leaves the run that it keeps from beginning. -/
theorem notBegun_of_isRefusal (calls : List Call) (hf : f.kind.IsRefusal) :
    notBegun calls f = { exit := failure, said := [], calls, fault := some f } := by
  obtain ⟨htool, hconfiguration, hinterrupt⟩ := hf.silent
  have hannounced : f.isAnnounced = false := by simp [Fault.isAnnounced, htool, hconfiguration]
  simp [notBegun, left, hannounced, hinterrupt]

/-- A fault that is told as a tool's failure surfaces. -/
theorem surfaces_of_isUnstarted (hw : h.CannotStart folder command why)
    (hu : Host.isUnstarted why = true) : Surfaces h folder command why := by
  have hrunner : (h.runner command folder).result
      = .error (.tool { cause := .unstarted why, command }) := by
    rw [runner_of_cannotStart hw, Host.toolFault, if_pos hu]
  refine ⟨endsIn_of_runner hrunner rfl, fun i hi => ?_⟩
  obtain ⟨calls, hrun⟩ := run_eq_notBegun hi hrunner rfl
  exact ⟨calls, hrun⟩

/-- Every other fault escapes. -/
theorem escapes_of_not_isUnstarted (hw : h.CannotStart folder command why)
    (hu : Host.isUnstarted why ≠ true) : Escapes h folder command why := by
  have hrunner : (h.runner command folder).result = .error (.command why) := by
    rw [runner_of_cannotStart hw, Host.toolFault, if_neg hu]
  have hrefusal : (Fault.command why).kind.IsRefusal := isRefusal_of_cannotStart hw
  refine ⟨endsIn_of_runner hrunner hrefusal.not_isExhausted, fun i hi => ?_⟩
  obtain ⟨calls, hrun⟩ := run_eq_notBegun hi hrunner hrefusal.not_isExhausted
  exact ⟨calls, hrun.trans (notBegun_of_isRefusal calls hrefusal)⟩

/-- **That a command cannot be started surfaces exactly when a file is absent or an access is not
permitted**, and otherwise the fault escapes. -/
theorem surfaces_iff (hw : h.CannotStart folder command why) :
    (Surfaces h folder command why ↔ why.kind = .absent ∨ why.kind = .permission) ∧
    (¬(why.kind = .absent ∨ why.kind = .permission) → Escapes h folder command why) := by
  have hu : Host.isUnstarted why = true ↔ why.kind = .absent ∨ why.kind = .permission := by
    simp [Host.isUnstarted]
  rw [← hu]
  refine ⟨⟨fun hs => ?_, surfaces_of_isUnstarted hw⟩, escapes_of_not_isUnstarted hw⟩
  by_contra hnot
  exact hs.not_escapes (escapes_of_not_isUnstarted hw hnot)

/-- A host whose version control system the system refuses to start. -/
def refusingHost (r : Reported) : Host where
  executables := [("git", "/bin/git")]
  answer _ := .reported r

/-- The version control system must not be run. -/
def denied : Reported := ⟨.permission, some "[Errno 13] Permission denied: '/bin/git'"⟩

/-- The version control system is no program for this machine. -/
def foreign : Reported := ⟨.system, some "[Errno 8] Exec format error: '/bin/git'"⟩

/-- The command that lists the changed files cannot be started there. -/
theorem cannotStart_refusingHost {r : Reported} (refusal : r.kind.IsRefusal) :
    (refusingHost r).CannotStart (some .root) (Changes.command "abc") (.reported r) := by
  have hlocate : (refusingHost r).locate (some .root) "git" = .ok "/bin/git" := by
    rw [Host.locate_of_not_isLocated (by decide +kernel)]
    rfl
  exact .refused hlocate rfl refusal

/-- An invocation that names no files. -/
def noFiles : Invocation := { inputs := { linter := some "phpcs", base := some "abc" } }

/-- Its run begins with that command. -/
theorem noFiles_beginsWith (h : Host) :
    noFiles.BeginsWith h (some .root) (Changes.command "abc") :=
  ⟨rfl, ⟨.ofString "phpcs", none, true, "abc", 1, .root⟩, rfl, rfl, rfl⟩

/-- A version control system that must not be run is announced. -/
theorem surfaces_iff_denied :
    (refusingHost denied).CannotStart (some .root) (Changes.command "abc") (.reported denied) ∧
    ∃ calls, run (refusingHost denied) noFiles = {
      exit := failure
      said := [.debug Review.faultLog, .error "[Errno 13] Permission denied: '/bin/git'",
        .status .fail "[Errno 13] Permission denied: '/bin/git'"]
      calls } := by
  have hw := cannotStart_refusingHost (r := denied) .permission
  exact ⟨hw, ((surfaces_iff hw).1.2 (.inr rfl)).run noFiles (noFiles_beginsWith _)⟩

/-- **A version control system that is no program for this machine** leaves the program without a
word. -/
theorem foreign_escapes :
    (refusingHost foreign).CannotStart (some .root) (Changes.command "abc") (.reported foreign) ∧
    ((refusingHost foreign).runner (Changes.command "abc") (some .root)).result
      = .error (.command (.reported foreign)) ∧
    run (refusingHost foreign) noFiles = {
      exit := failure
      said := []
      calls := [⟨["/bin/git", "diff", "--name-only", "--diff-filter=AM", "abc", "HEAD", "--"],
        some .root⟩]
      fault := some (.command (.reported foreign)) } ∧
    ¬Surfaces (refusingHost foreign) (some .root) (Changes.command "abc") (.reported foreign) := by
  have hrunner : ((refusingHost foreign).runner (Changes.command "abc") (some .root)).result
      = .error (.command (.reported foreign)) := by decide +kernel
  refine ⟨cannotStart_refusingHost .system, hrunner, by decide +kernel, fun hs => ?_⟩
  have htool := hs.tool.runner
  rw [hrunner] at htool
  cases htool

end Program

end LintGate
