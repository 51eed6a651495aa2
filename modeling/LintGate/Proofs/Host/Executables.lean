import LintGate.Host.Launch
import LintGate.Linter
import LintGate.Proofs.Path
import LintGate.Proofs.Settings
import LintGate.Proofs.Text.Trimming

/-!
# Which executable a command means

A text with a slash in it is the path of a file, and a text without one is a name for the search
path. A command should be run as its executable is written in this sense (`RunsAsWritten`): at the
file, or not at all if there is none, whatever the search path has; or from the search path,
whatever files there are.

What is looked at, however, is not the text but its path, in which a dot and a slash at the end
are no longer to be seen. So a text such as `./tool` (`LiesHere`) is taken for a bare name and is
looked up. Run as a command it is looked up as it stands, and a lookup checks a name with a slash in
the directory of the process itself, not in the one that the command is to run in. Given as the
linter it has been read as a path before, so that it is the name `tool` that is looked up on the
search path. `runsAsWritten_iff` says that there are no other exceptions, and `lint_elsewhere` is a
run of another linter than the one given.
-/

namespace LintGate

/-- Why a command was not run, if that is what a fault tells. -/
def Fault.unstarted? : Fault → Option CommandFault
  | .command why => some why
  | .tool { cause := .unstarted why, .. } => some why
  | _ => none

namespace Host

variable {α : Type}

/-! ## Running as written -/

/-- **The file that a text means** to a command in a directory. -/
def fileOf (folder : Option Path) (text : String) : Path :=
  (folder.getD .current).join (.ofString text)

/-- **An attempt without an executable**: nothing is started, for a file is absent. -/
def LacksExecutable (x : Attempt α) : Prop :=
  x.calls = [] ∧ ∃ f why, x.result = .error f ∧ f.unstarted? = some why ∧ why.kind = .absent

/-- **Run at its file**: a command is started whose executable is that file, written with a slash so
that the system does not look it up; and none if there is no such file. -/
def RunsFile (h : Host) (folder : Option Path) (text : String) (arguments : List String)
    (x : Attempt α) : Prop :=
  if h.has (fileOf folder text) then
    ∃ found, x.calls = [⟨found :: arguments, folder⟩] ∧ '/' ∈ found.toList ∧
      fileOf folder found = fileOf folder text
  else LacksExecutable x

/-- **Run from the search path**: what the search path has by that name is started, and nothing if it
has none. -/
def RunsFound (h : Host) (folder : Option Path) (name : String) (arguments : List String)
    (x : Attempt α) : Prop :=
  match h.executables.get? name with
  | some found => x.calls = [⟨found :: arguments, folder⟩]
  | none => LacksExecutable x

/-- **Run as the executable is written.** -/
def RunsAsWritten (h : Host) (folder : Option Path) (text : String) (arguments : List String)
    (x : Attempt α) : Prop :=
  if '/' ∈ text.toList then RunsFile h folder text arguments x
  else RunsFound h folder text arguments x

/-- **A text of a file right here**: there is a slash in it, but one name at most. -/
def LiesHere (text : String) : Prop :=
  '/' ∈ text.toList ∧ (Path.ofString text).isBare = true

instance (text : String) : Decidable (LiesHere text) := inferInstanceAs (Decidable (_ ∧ _))

/-! ## Running as located -/

/-- **An attempt at a command**: it starts the executable that is located, and ends with the fault
when none is. -/
structure Tries (h : Host) (folder : Option Path) (executable : String)
    (arguments : List String) (x : Attempt α) : Prop where
  started {found : String} (located : h.locate folder executable = .ok found) :
    x.calls = [⟨found :: arguments, folder⟩]
  unstarted {why : CommandFault} (absent : h.locate folder executable = .error why) :
    x.calls = [] ∧ ∃ f, x.result = .error f ∧ f.unstarted? = some why

section Tries

variable {h : Host} {folder : Option Path} {executable text : String} {arguments : List String}
  {x : Attempt α}

theorem Tries.lacksExecutable (hx : Tries h folder executable arguments x)
    {why : CommandFault} (hw : h.locate folder executable = .error why) : LacksExecutable x := by
  obtain ⟨hcalls, f, hf, hwhy⟩ := hx.unstarted hw
  exact ⟨hcalls, f, why, hf, hwhy, kind_of_locate hw⟩

/-- **What is not bare is run at its file.** -/
theorem Tries.runsFile (hx : Tries h folder executable arguments x)
    (hpath : Path.ofString executable = Path.ofString text)
    (hbare : (Path.ofString text).isBare = false) : RunsFile h folder text arguments x := by
  have hlocated : isLocated executable = true := by simp [isLocated, hpath, hbare]
  have hlocate : h.locate folder executable =
      if h.has (fileOf folder text) then .ok (Path.ofString text).toString
      else .error (.missing executable) := by
    rw [locate_of_isLocated hlocated, hpath]
    rfl
  unfold RunsFile
  split
  next hhas =>
    rw [if_pos hhas] at hlocate
    refine ⟨_, hx.started hlocate, Path.slash_mem_toString hbare, ?_⟩
    rw [fileOf, Path.ofString_toString, fileOf]
  next hhas =>
    rw [if_neg hhas] at hlocate
    exact hx.lacksExecutable hlocate

/-- **What is bare is run from the search path.** -/
theorem Tries.runsFound (hx : Tries h folder executable arguments x)
    (hbare : (Path.ofString executable).isBare = true) :
    RunsFound h folder executable arguments x := by
  have hlocated : isLocated executable = false := by simp [isLocated, hbare]
  have hlocate : h.locate folder executable = (h.executables.get? executable).elim
      (.error (.unknown executable)) .ok := locate_of_not_isLocated hlocated
  unfold RunsFound
  cases hg : h.executables.get? executable with
  | some found =>
    rw [hg] at hlocate
    exact hx.started hlocate
  | none =>
    rw [hg] at hlocate
    exact hx.lacksExecutable hlocate

end Tries

/-- A host that has nothing but one file. -/
def hostWithFile (file : Path) : Host := { files := [(file.toString, .bytes [])] }

/-- **Attempts at a command run it as it is written on every host, unless the executable lies right
here.** The text may have become another spelling of its path by the time it is run. -/
theorem runsAsWritten_iff_of_tries {folder : Option Path} {executable text : String}
    {arguments : List String} {x : Host → Attempt α}
    (hx : ∀ h, Tries h folder executable arguments (x h))
    (hpath : Path.ofString executable = Path.ofString text)
    (hname : '/' ∉ text.toList → executable = text) :
    (∀ h, RunsAsWritten h folder text arguments (x h)) ↔ ¬LiesHere text := by
  constructor
  · rintro hall ⟨hslash, hbare⟩
    -- here is the file, and it is not run
    have hfile := hall (hostWithFile (fileOf folder text))
    have hhas : (hostWithFile (fileOf folder text)).has (fileOf folder text) = true := by
      simp [hostWithFile, has, content?, Table.get?]
    rw [RunsAsWritten, if_pos hslash, RunsFile, if_pos hhas] at hfile
    obtain ⟨found, hcalls, -⟩ := hfile
    -- for the search path, where it is looked for, is empty
    have hlacks : LacksExecutable (x (hostWithFile (fileOf folder text))) :=
      (hx (hostWithFile (fileOf folder text))).runsFound (hpath ▸ hbare)
    rw [hlacks.1] at hcalls
    cases hcalls
  · intro hhere h
    unfold RunsAsWritten
    split
    next hslash =>
      have hbare : (Path.ofString text).isBare = false := by
        rw [← Bool.not_eq_true]
        exact fun hbare => hhere ⟨hslash, hbare⟩
      exact (hx h).runsFile hpath hbare
    next hslash =>
      rw [hname hslash] at hx
      exact (hx h).runsFound (Path.isBare_of_slash_not_mem hslash)

/-! ## Commands and linters -/

theorem tries_launch (h : Host) (options : Options) (executable : String)
    (arguments : List String) :
    Tries h options.folder executable arguments
      (h.launch options (executable :: arguments)) where
  started hl := by simp [launch, attempt, hl]
  unstarted hl := by simp [launch, attempt, hl, Except.mapError, Fault.unstarted?]

theorem tries_runner (h : Host) (folder : Option Path) (executable : String)
    (arguments : List String) :
    Tries h folder executable arguments (h.runner (executable :: arguments) folder) where
  started hl := by simp [runner, attempt, hl]
  unstarted {why} hl := by
    have hunstarted : isUnstarted why = true := by simp [isUnstarted, kind_of_locate hl]
    simp [runner, attempt, hl, Except.mapError, toolFault, hunstarted, Fault.unstarted?]

/-- What reads the answer of a command is an attempt at the command. -/
theorem Tries.bind_ofResult {β : Type} {h : Host} {folder : Option Path} {executable : String}
    {arguments : List String} {x : Attempt β} (hx : Tries h folder executable arguments x)
    (read : β → Except Fault α) :
    Tries h folder executable arguments (x >>= fun b => .ofResult (read b)) where
  started hl := by rw [Attempt.calls_bind_ofResult, hx.started hl]
  unstarted hl := by
    obtain ⟨hcalls, f, hf, hwhy⟩ := hx.unstarted hl
    rw [Attempt.bind_of_error hf]
    exact ⟨hcalls, f, rfl, hwhy⟩

theorem tries_lint (h : Host) (folder : Option Path) (linter : Path)
    (options : Table String String) {files : List String} (hfiles : files ≠ []) :
    Tries h folder linter.toString (Linter.command linter options files).tail
      (Linter.lint h.runner folder linter options files) := by
  cases files with
  | nil => exact absurd rfl hfiles
  | cons file files => exact (tries_runner h folder linter.toString _).bind_ofResult _

/-- **Commands are run as they are written, and so is the linter that is given**, on every host,
exactly when the text of the executable does not lie right here. Such a text is run from the search
path, by the name that is left of it if it is the linter's. -/
theorem runsAsWritten_iff (text : String) :
    (∀ (options : Options) (arguments : List String),
      ((∀ h : Host, RunsAsWritten h options.folder text arguments
        (h.launch options (text :: arguments))) ↔ ¬LiesHere text) ∧
      (LiesHere text → ∀ h : Host, RunsFound h options.folder text arguments
        (h.launch options (text :: arguments)))) ∧
    ∀ (h' : Host) (i : Settings.Inputs) (s : Settings), Settings.given? i.linter = some text →
      Settings.load h' i = .ok s →
      ∀ (folder : Option Path) (options : Table String String) (files : List String), files ≠ [] →
        ((∀ h : Host, RunsAsWritten h folder text (Linter.command s.linter options files).tail
          (Linter.lint h.runner folder s.linter options files)) ↔ ¬LiesHere text) ∧
        (LiesHere text → ∀ h : Host, RunsFound h folder s.linter.toString
          (Linter.command s.linter options files).tail
          (Linter.lint h.runner folder s.linter options files)) := by
  constructor
  · intro options arguments
    have hx := fun h => tries_launch h options text arguments
    exact ⟨runsAsWritten_iff_of_tries hx rfl fun _ => rfl,
      fun hhere h => (hx h).runsFound hhere.2⟩
  · intro h' i s hgiven hload folder options files hfiles
    have hx := fun h => tries_lint h folder s.linter options hfiles
    have hlinter : s.linter = .ofString text := Settings.linter_of_load hload hgiven
    have hpath : Path.ofString s.linter.toString = Path.ofString text := by
      rw [Path.ofString_toString, hlinter]
    have hne : text ≠ "" := by
      obtain ⟨given, -, htrim⟩ := Option.bind_eq_some_iff.1 hgiven
      exact (Text.isTrimmed_of_trimmed? htrim).1
    refine ⟨runsAsWritten_iff_of_tries hx hpath fun hslash => ?_,
      fun hhere h => (hx h).runsFound (hpath ▸ hhere.2)⟩
    rw [hlinter, Path.toString_ofString_of_slash_not_mem hslash hne]

/-- Inputs with this linter. -/
def inputsWith (linter : String) : Settings.Inputs := { linter := some linter, base := some "abc" }

/-- Settings with this linter. -/
def settingsWith (linter : String) : Settings :=
  ⟨.ofString linter, none, true, "abc", 1, .root⟩

/-- A path in an odd spelling, with blanks around it, is run at its file. -/
theorem runsAsWritten_iff_spelled :
    Settings.given? (some " vendor//bin/./phpcs/ ") = some "vendor//bin/./phpcs/" ∧
    Settings.load {} (inputsWith " vendor//bin/./phpcs/ ")
      = .ok (settingsWith "vendor//bin/./phpcs/") ∧
    ["a.php"] ≠ [] ∧
    ∀ h : Host, RunsAsWritten h (some .root) "vendor//bin/./phpcs/" ["--report=json", "a.php"]
      (Linter.lint h.runner (some .root) (settingsWith "vendor//bin/./phpcs/").linter []
        ["a.php"]) := by
  have hgiven : Settings.given? (some " vendor//bin/./phpcs/ ") = some "vendor//bin/./phpcs/" := by
    decide +kernel
  have hload : Settings.load {} (inputsWith " vendor//bin/./phpcs/ ")
      = .ok (settingsWith "vendor//bin/./phpcs/") := by
    decide +kernel
  exact ⟨hgiven, hload, nofun,
    ((runsAsWritten_iff "vendor//bin/./phpcs/").2 {} _ _ hgiven hload (some .root) [] ["a.php"]
      nofun).1.2 (by decide +kernel)⟩

/-- A host that has a linter on the search path, and no other. -/
def hostWithLinter : Host := { executables := [("phpcs", "/usr/bin/phpcs")] }

/-- **The linter that is given lies right here, and another one is run.** -/
theorem lint_elsewhere :
    Settings.load {} (inputsWith "./phpcs") = .ok (settingsWith "./phpcs") ∧
    (Linter.lint hostWithLinter.runner (some .root) (settingsWith "./phpcs").linter []
      ["a.php"]).calls = [⟨["/usr/bin/phpcs", "--report=json", "a.php"], some .root⟩] ∧
    ¬RunsAsWritten hostWithLinter (some .root) "./phpcs" ["--report=json", "a.php"]
      (Linter.lint hostWithLinter.runner (some .root) (settingsWith "./phpcs").linter []
        ["a.php"]) := by
  have hcalls : (Linter.lint hostWithLinter.runner (some .root) (settingsWith "./phpcs").linter []
      ["a.php"]).calls = [⟨["/usr/bin/phpcs", "--report=json", "a.php"], some .root⟩] := by
    decide +kernel
  refine ⟨by decide +kernel, hcalls, fun hwritten => ?_⟩
  have hhas : ¬hostWithLinter.has (fileOf (some .root) "./phpcs") = true := by decide +kernel
  rw [RunsAsWritten, if_pos (by decide), RunsFile, if_neg hhas] at hwritten
  rw [hwritten.1] at hcalls
  cases hcalls

end Host

end LintGate
