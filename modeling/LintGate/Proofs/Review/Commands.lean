import LintGate.Proofs.Review.Faults
import LintGate.Proofs.Review.Verdict

/-!
# The commands of a review

What is seen of a review leaves its commands out. With one job they are told by the sources alone:
the commands of the linter come first, and then those that ask for provenance, file by file, up to
the first file whose provenance is refused (`calls_run`). The files that are asked about are
`askedFiles`, a prefix of the files that are judged.

With one job the plan itself has the working form of a review, commands included (`plan_eq`). So it
is enough to know what going through the files adds to the commands, which goes by induction on the
files with the trace left general (`calls_perform_filesDeeds`).
-/

namespace LintGate

namespace Review

/-- **The files whose provenance is asked for**, one after the other, up to the first that is
refused. -/
def askedFiles (sources : Sources) : List String → List String
  | [] => []
  | file :: files =>
    file ::
      match (sources.blame file).result with
      | .ok _ => askedFiles sources files
      | .error _ => []

/-- The commands that ask for the provenance of some files. -/
def blameCalls (sources : Sources) (files : List String) : List Call :=
  files.flatMap fun file => (sources.blame file).calls

variable {s : Settings} {sources : Sources} {strict : Bool} {file : String} {files : List String}

/-! ## The files that are asked about -/

theorem askedFiles_cons_of_ok {p : Provenance} (h : (sources.blame file).result = .ok p) :
    askedFiles sources (file :: files) = file :: askedFiles sources files := by
  rw [askedFiles, h]

theorem askedFiles_cons_of_error {f : Fault} (h : (sources.blame file).result = .error f) :
    askedFiles sources (file :: files) = [file] := by
  rw [askedFiles, h]

/-- Only files at the end of the list are not asked about. -/
theorem askedFiles_isPrefix (sources : Sources) (files : List String) :
    askedFiles sources files <+: files := by
  induction files with
  | nil => exact List.prefix_rfl
  | cons file files ih =>
    cases h : (sources.blame file).result with
    | ok p =>
      rw [askedFiles_cons_of_ok h]
      exact List.cons_prefix_cons.mpr ⟨rfl, ih⟩
    | error f =>
      rw [askedFiles_cons_of_error h]
      exact List.cons_prefix_cons.mpr ⟨rfl, List.nil_prefix⟩

/-- **A file that is asked about before another** has its provenance. -/
theorem pairwise_askedFiles (sources : Sources) (files : List String) :
    (askedFiles sources files).Pairwise fun file _ =>
      ∃ p, (sources.blame file).result = .ok p := by
  induction files with
  | nil => exact .nil
  | cons file files ih =>
    cases h : (sources.blame file).result with
    | ok p =>
      rw [askedFiles_cons_of_ok h]
      exact .cons (fun _ _ => ⟨p, h⟩) ih
    | error f =>
      rw [askedFiles_cons_of_error h]
      exact List.pairwise_singleton _ _

/-! ## What going through the files starts -/

/-- Commands that are started change nothing else. -/
theorem perform_starts (t : Trace) (cs : List Call) :
    perform .open strict t (cs.map .start) = ({ t with calls := t.calls ++ cs }, none) := by
  rw [perform_open strict t (by simp)]
  simp [List.filterMap_map, List.flatMap_map, Function.comp_def, Deed.call?, Deed.lines,
    Deed.entry?, Decision.enterAll]

/-- The findings of a file are gone through without a fault, and start nothing. -/
theorem perform_fileDeeds (strict : Bool) (t : Trace) (s : Settings) (file : String)
    (fs : List Finding) (p : Provenance) :
    ∃ u, perform .open strict t (fileDeeds s file fs p) = (u, none) ∧ u.calls = t.calls := by
  refine ⟨_, perform_open strict t (stop_not_mem_fileDeeds s file fs p), ?_⟩
  rw [filterMap_call?_fileDeeds, List.append_nil]

/-- **One file after the other**: going through some files adds the commands that ask about them, up
to the first refusal. -/
theorem calls_perform_filesDeeds (t : Trace) (files : Table String (List Finding)) :
    (perform .open strict t (filesDeeds s sources files)).1.calls
      = t.calls ++ blameCalls sources (askedFiles sources files.keys) := by
  induction files generalizing t with
  | nil => exact (List.append_nil _).symm
  | cons e files ih =>
    show _ = t.calls ++ blameCalls sources (askedFiles sources (e.1 :: Table.keys files))
    cases he : (sources.blame e.1).result with
    | ok p =>
      obtain ⟨u, hu, hcalls⟩ := perform_fileDeeds strict
        { t with calls := t.calls ++ (sources.blame e.1).calls } s e.1 e.2 p
      rw [filesDeeds_cons_of_ok he, perform_append, perform_append, perform_starts]
      dsimp only
      rw [hu]
      dsimp only
      rw [ih, hcalls, askedFiles_cons_of_ok he, blameCalls, blameCalls, List.flatMap_cons,
        List.append_assoc]
    | error f =>
      rw [filesDeeds_cons_of_error he, perform_append, perform_append, perform_starts,
        askedFiles_cons_of_error he]
      simp [blameCalls]

/-! ## With one job -/

/-- **With one job the plan has the working form of a review**, commands included. -/
theorem plan_eq (hjobs : s.jobs ≤ 1) :
    plan s sources = openingDeeds sources ++ filesDeeds s sources (judgedFiles s sources) := by
  unfold plan openingDeeds judgedFiles attempted
  cases sources.lint.result with
  | error f => simp [filesDeeds]
  | ok r =>
    have hahead : fetchesAhead s r = false := by simp [fetchesAhead, Nat.not_lt.mpr hjobs]
    cases hn : r.totals.notice? s.strict <;>
      simp [reportDeeds, provenanceDeeds, hahead, hn, filesDeeds]

/-- The end of a review starts no command. -/
theorem calls_conclude (x : Trace × Option Fault) :
    (conclude .open strict x).1.calls = x.1.calls := by
  obtain ⟨t, _ | f⟩ := x
  · rfl
  · exact calls_conclude_open strict t f

/-- **The commands of a review with one job**: those of the linter, and then those that ask for
provenance, file by file, up to the first refusal. -/
theorem calls_run (hjobs : s.jobs ≤ 1) :
    (run s sources .open).1.calls
      = sources.lint.calls
          ++ blameCalls sources (askedFiles sources (judgedFiles s sources).keys) := by
  rw [run, calls_conclude, plan_eq hjobs, perform_append, openingDeeds]
  cases hl : sources.lint.result with
  | error f =>
    rw [attempted_of_error hl, perform_append, perform_starts, judgedFiles_of_error hl]
    exact (List.append_nil _).symm
  | ok r =>
    have hstop : ∀ f, Deed.stop f ∉ openingDeeds sources := by
      simp [openingDeeds_of_ok hl]
    have hcalls : (openingDeeds sources).filterMap Deed.call? = sources.lint.calls := by
      simp [openingDeeds_of_ok hl, List.filterMap_map, Function.comp_def, Deed.call?,
        List.filterMap_cons]
    rw [← openingDeeds, perform_open s.strict {} hstop, hcalls]
    exact calls_perform_filesDeeds _ _

end Review

end LintGate
