import LintGate.Path
import LintGate.Schema

/-!
# Settings

What stays the same for a whole run: the linter and its coding standard, whether warnings count,
the revision that the change starts from, how many provenances are asked for at a time, and the
root directory. `Settings.ofJson` reads settings as a record, and `Settings.checked` makes them of
parts that are known already; both refuse an empty revision and a number of jobs below one.
-/

namespace LintGate

open Schema

/-- **The settings of a run.** -/
structure Settings where
  /-- The linter's executable. -/
  linter : Path
  /-- The coding standard it is told to apply. -/
  standard : Option String
  /-- Warnings make a run fail, as errors do. -/
  strict : Bool
  /-- The revision that the change starts from. -/
  base : String
  /-- How many provenances are asked for at a time. -/
  jobs : Nat
  /-- The directory in which files are named. -/
  root : Path
  deriving DecidableEq, Repr

namespace Settings

/-- The name of the record in messages. -/
def recordName : String := "RunConfig"

/-- The words that make warnings harmless; every other word, or none, makes them count. -/
def lenientWords : List String := ["false", "off"]

/-- **Whether warnings count**, from the word that was given. -/
def strictOf (word : Option String) : Bool :=
  match word with
  | some w => w ∉ lenientWords
  | none => true

/-- **The range of revisions to ask provenance for**: from the base on, without an end. -/
def range (s : Settings) : String := s.base ++ ".."

/-- **The options passed to the linter.** An empty standard is none. -/
def lintOptions (s : Settings) : Table String String :=
  match s.standard with
  | none => []
  | some name => if name = "" then [] else [("standard", name)]

/-- A path as a text names it. -/
def path : Json → Checked Path
  | .str s => .ok (.ofString s)
  | _ => .fail .notPath

/-- A number of jobs. -/
def jobCount : Json → Checked Nat := natural 1 .below

/-- **Settings as a record.** -/
def toJson (s : Settings) : Json := .obj [
  ("phpcs_path", .str s.linter.toString),
  ("standard", s.standard.elim .null .str),
  ("fail_on_warnings", .bool s.strict),
  ("base_revision", .str s.base),
  ("jobs", .int s.jobs),
  ("root", .str s.root.toString)]

/-- **The settings a record holds.** Relative paths are named from the root directory, unless the
record names another one. -/
def ofJson : Json → Checked Settings :=
  record fun ms =>
    ((((((Checked.make Settings.mk).and (required ms "phpcs_path" path)).and
      (optional ms "standard" none optionalText)).and
      (optional ms "fail_on_warnings" true truth)).and
      (required ms "base_revision" someText)).and
      (optional ms "jobs" 1 jobCount)).and
      (optional ms "root" .root path)

/-- **The settings with the given parts**, unless the base is empty or no job is allowed. -/
def checked (linter : Path) (standard : Option String) (strict : Bool) (base : String)
    (jobs : Json) (root : Path) : Except Invalid Settings :=
  (((Checked.make fun b j => Settings.mk linter standard strict b j root).and
    ((someText (.str base)).under (.key "base_revision"))).and
    ((jobCount jobs).under (.key "jobs"))).named recordName

/-- Parts make settings exactly when there is a base and at least one job. -/
theorem checked_eq_ok_iff {linter : Path} {standard : Option String} {strict : Bool}
    {base : String} {jobs : Json} {root : Path} {s : Settings} :
    checked linter standard strict base jobs root = .ok s ↔
      base ≠ "" ∧ ∃ n, jobCount jobs = .ok n ∧ s = ⟨linter, standard, strict, base, n, root⟩ := by
  by_cases hb : base = "" <;> cases hj : jobCount jobs <;>
    simp [checked, Checked.make, Checked.named, Checked.and, Checked.under, someText, text,
      Checked.fail, hb, hj, eq_comm]

end Settings

end LintGate
