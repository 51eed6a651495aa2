import LintGate.Changes
import LintGate.Proofs.Linter
import LintGate.Provenance.Blame

/-!
# Tracing a tool's failure

A tool's failure that comes up after its command has finished should say which command that was and
what it wrote to its error stream (`Traced`). Where a failure is told from the status, or from an
output that is missing, both are at hand and are put in. A report that cannot be read is found to be
so by its reader, which knows nothing of commands, and the linter passes the reader's refusal on
without adding to it. So all failures can be traced but those of a linter that printed something
unreadable (`tracesAll_iff`), and these tell neither the command nor the errors.
-/

namespace LintGate

/-- **A failure can be traced** to a finished command: if it is a tool's, it tells the command and
what that wrote to its error stream. -/
def Traced {α : Type} (x : Except Fault α) (command : List String) (f : Finished) : Prop :=
  ∀ t, x = .error (.tool t) → t.command = command ∧ t.errors = f.errors

variable {command : List String} {f : Finished} {run : Runner} {folder : Option Path}

/-- What is made of a result does not matter for the failure. -/
theorem Traced.map {α β : Type} {x : Except Fault α} (h : Traced x command f) (next : α → β) :
    Traced (x.map next) command f := by
  intro t ht
  cases x with
  | ok a => cases ht
  | error fault =>
    cases ht
    exact h t rfl

/-! ## The three readings of a finished command -/

namespace Blame

/-- A provenance that is refused can be traced. -/
theorem traced_provenanceOf (command : List String) (file : String) (f : Finished) :
    Traced (provenanceOf command file f) command f := by
  intro t ht
  unfold provenanceOf at ht
  split at ht
  · obtain ⟨digits, -, hfault⟩ := exists_of_mapError_eq_error ht
    cases hfault
  · cases ht
    exact ⟨rfl, rfl⟩

end Blame

namespace Changes

/-- A list of changed files that is refused can be traced. -/
theorem traced_namesOf (command : List String) (f : Finished) :
    Traced (namesOf command f) command f := by
  intro t ht
  unfold namesOf at ht
  split at ht
  · cases ht
  · cases ht
    exact ⟨rfl, rfl⟩

end Changes

namespace Linter

/-- **A linter that was not taken for failed printed something that cannot be read**, and not for
want of room for its brackets. -/
def IsUnreadable (f : Finished) : Prop :=
  f.status ≤ highestStatus ∧ documentOf f ≠ "" ∧
    ∃ why, Report.parse (documentOf f) = .error why ∧ ∀ b, why ≠ .text (.nesting b)

/-- The command lints some files. -/
def Lints (command : List String) : Prop :=
  ∃ linter options files, files ≠ [] ∧ command = Linter.command linter options files

/-- What cannot be read is refused without the command and its errors. -/
theorem reportOf_of_isUnreadable (command : List String) (h : IsUnreadable f) :
    ∃ why, Report.parse (documentOf f) = .error why ∧
      reportOf command f = .error (.tool { cause := .unreadable why }) := by
  obtain ⟨hlow, hsome, why, hread, hshallow⟩ := h
  refine ⟨why, hread, ?_⟩
  rw [reportOf, if_neg (Int.not_lt.2 hlow), Text.trimmed?_eq_some_iff.2 ⟨rfl, hsome⟩]
  show (Report.parse (documentOf f)).mapError Fault.ofUnreadable = _
  rw [hread, ← ofUnreadable_of_shallow hshallow]
  rfl

/-- **Every other refusal can be traced.** -/
theorem traced_reportOf (command : List String) (h : ¬IsUnreadable f) :
    Traced (reportOf command f) command f := by
  intro t ht
  unfold reportOf at ht
  split at ht
  · cases ht
    exact ⟨rfl, rfl⟩
  next hlow =>
    split at ht
    · cases ht
      exact ⟨rfl, rfl⟩
    next document hdocument =>
      -- the reader's refusal is a tool's failure only for a document that is not too deep
      obtain ⟨hdocument, hsome⟩ := Text.trimmed?_eq_some_iff.1 hdocument
      obtain rfl : documentOf f = document := hdocument
      obtain ⟨why, hread, hfault⟩ := exists_of_mapError_eq_error ht
      refine absurd ⟨Int.not_lt.1 hlow, hsome, why, hread, ?_⟩ h
      rintro b rfl
      cases hfault

end Linter

/-! ## Wherever a tool is run -/

/-- **Every failure can be traced** to a command that has finished, wherever it was run as a
tool. -/
structure TracesAll (run : Runner) (folder : Option Path) (command : List String) (f : Finished) :
    Prop where
  lint (linter : Path) (options : Table String String) (files : List String) (given : files ≠ [])
    (linting : command = Linter.command linter options files) :
    Traced (Linter.lint run folder linter options files).result command f
  blame (range file : String) (asking : command = Blame.command range file) :
    Traced (Blame.blame run folder range file).result command f
  discover (h : Host) (base : String) (root : Path) (patterns : List String)
    (rooted : folder = some root) (listing : command = Changes.command base) :
    Traced (Changes.discover h run base root patterns).result command f

/-- **Every failure can be traced exactly if the linter printed nothing unreadable.** Otherwise its
failure tells neither the command nor what it wrote to its error stream. -/
theorem tracesAll_iff (hrun : (run command folder).result = .ok f) :
    (TracesAll run folder command f ↔ ¬(Linter.Lints command ∧ Linter.IsUnreadable f)) ∧
    ∀ linter options files, files ≠ [] → command = Linter.command linter options files →
      Linter.IsUnreadable f →
      ∃ why, Report.parse (Linter.documentOf f) = .error why ∧
        (Linter.lint run folder linter options files).result
          = .error (.tool { cause := .unreadable why, command := [], errors := none }) := by
  have hunreadable : ∀ linter options files, files ≠ [] →
      command = Linter.command linter options files → Linter.IsUnreadable f →
      ∃ why, Report.parse (Linter.documentOf f) = .error why ∧
        (Linter.lint run folder linter options files).result
          = .error (.tool { cause := .unreadable why, command := [], errors := none }) := by
    rintro linter options files hfiles rfl hf
    rw [Linter.result_lint hfiles hrun]
    exact Linter.reportOf_of_isUnreadable _ hf
  refine ⟨⟨?_, fun hnot => ⟨?_, ?_, ?_⟩⟩, hunreadable⟩
  · rintro htraces ⟨⟨linter, options, files, hfiles, hcommand⟩, hf⟩
    obtain ⟨why, -, hresult⟩ := hunreadable linter options files hfiles hcommand hf
    obtain ⟨hempty, -⟩ := htraces.lint linter options files hfiles hcommand _ hresult
    rw [hcommand] at hempty
    cases hempty
  · rintro linter options files hfiles rfl
    rw [Linter.result_lint hfiles hrun]
    exact Linter.traced_reportOf _ fun hf => hnot ⟨⟨linter, options, files, hfiles, rfl⟩, hf⟩
  · rintro range file rfl
    rw [Blame.blame, Attempt.result_bind_ofResult_of_ok hrun]
    exact Blame.traced_provenanceOf _ file f
  · rintro h base root patterns rfl rfl
    rw [Changes.discover,
      Attempt.result_bind_ofResult_of_ok (Attempt.result_passedOn_eq_ok_iff.2 hrun)]
    exact (Changes.traced_namesOf _ f).map _

/-- A tool that ended with this status, printed a remark and wrote another one to its error
stream, -/
def remarking (status : Int) : Finished :=
  ⟨status, some "ERROR: no files\n", some "PHP Notice: old"⟩

/-- and a runner of such tools. -/
def remarkingRunner (status : Int) : Runner := fun _ _ => .done (remarking status)

/-- The provenance that is refused can be traced. -/
theorem tracesAll_iff_refused :
    (remarkingRunner 128 (Blame.command "abc.." "a.php") none).result = .ok (remarking 128) ∧
    ∃ t, (Blame.blame (remarkingRunner 128) none "abc.." "a.php").result = .error (.tool t) ∧
      t.command = ["git", "blame", "--line-porcelain", "abc..", "--", "a.php"] ∧
      t.errors = some "PHP Notice: old" := by
  have hrun : (remarkingRunner 128 (Blame.command "abc.." "a.php") none).result
      = .ok (remarking 128) := rfl
  have hread : ¬Linter.IsUnreadable (remarking 128) := fun h => absurd h.1 (by decide)
  have htraces := (tracesAll_iff hrun).1.2 fun h => hread h.2
  have hresult : (Blame.blame (remarkingRunner 128) none "abc.." "a.php").result
      = .error (.tool {
          cause := .noProvenance "a.php" 128
          command := Blame.command "abc.." "a.php"
          errors := some "PHP Notice: old" }) := rfl
  exact ⟨hrun, _, hresult, htraces.blame _ _ rfl _ hresult⟩

/-- **A linter with findings that printed no report** fails without its command and its errors. -/
theorem lint_untraced :
    ∃ why,
      (Linter.lint (remarkingRunner 1) none (.ofString "phpcs") [] ["a.php"]).result
        = .error (.tool { cause := .unreadable why, command := [], errors := none }) ∧
      ¬TracesAll (remarkingRunner 1) none ["phpcs", "--report=json", "a.php"] (remarking 1) := by
  have hresult : (Linter.lint (remarkingRunner 1) none (.ofString "phpcs") [] ["a.php"]).result
      = .error (.tool {
          cause := .unreadable (.text (.flawed .value ⟨1, 1, 0⟩))
          command := []
          errors := none }) := by
    decide +kernel
  refine ⟨_, hresult, fun htraces => ?_⟩
  have hcommand : ["phpcs", "--report=json", "a.php"]
      = Linter.command (.ofString "phpcs") [] ["a.php"] := by decide +kernel
  obtain ⟨hempty, -⟩ := htraces.lint _ _ _ (List.cons_ne_nil _ _) hcommand _ hresult
  cases hempty

end LintGate
