import LintGate.Proofs.Review.Files

/-!
# Reviews whose sources answer

Sources *answer* when the linter gives a report and the provenance of each of its files is had. A
review of such sources has no fault in it where every line is taken, so it can be computed: it
opens, which is two lines about the report and a look at its totals, and unless these settle it, it
goes through the files (`seen_run_of_answer`, `seen_run_of_notice`).
-/

namespace LintGate

/-- **Sources that answer**: the linter gives a report, and the provenance of each of its files is
had. -/
structure Sources.Answer (sources : Sources) (r : Report) (maps : String → Provenance) :
    Prop where
  /-- The linter gives the report. -/
  lint : sources.lint.result = .ok r
  /-- The provenance of every file of the report is had. -/
  blame : ∀ e ∈ r.files, (sources.blame e.1).result = .ok (maps e.1)

/-- Sources with their answers at hand. -/
def Sources.answering (r : Report) (maps : String → Provenance) : Sources where
  lint := .done r
  blame file := .done (maps file)

theorem Sources.answer_answering (r : Report) (maps : String → Provenance) :
    (answering r maps).Answer r maps :=
  ⟨rfl, fun _ _ => rfl⟩

namespace Review

variable {s : Settings} {sources : Sources} {r : Report} {maps : String → Provenance}
variable {files : Table String (List Finding)}

/-- **Files whose provenances are at hand** are gone through without a fault. -/
theorem filesDeeds_of_answers
    (h : ∀ e ∈ files, (sources.blame e.1).result = .ok (maps e.1)) :
    filesDeeds s sources.fetched files
      = files.flatMap fun e => fileDeeds s e.1 e.2 (maps e.1) := by
  induction files with
  | nil => rfl
  | cons e files ih =>
    have ih := ih fun e he => h e (List.mem_cons_of_mem _ he)
    have he : (sources.fetched.blame e.1).result = .ok (maps e.1) := h e List.mem_cons_self
    rw [filesDeeds_cons_of_ok he, ih, List.flatMap_cons]
    rfl

/-- **What becomes of files whose provenances are at hand**, where every line is taken. -/
theorem seen_filesDeeds_of_answers (t : Trace)
    (h : ∀ e ∈ files, (sources.blame e.1).result = .ok (maps e.1)) :
    seen (perform .open s.strict t (filesDeeds s sources.fetched files))
      = (t.lines ++ fileLines s maps files,
          t.decision.enterAll s.strict (fileEntries s maps files), none) := by
  have hstop : ∀ f, Deed.stop f ∉ files.flatMap fun e => fileDeeds s e.1 e.2 (maps e.1) := by
    intro f hf
    obtain ⟨e, -, he⟩ := List.mem_flatMap.mp hf
    rcases mem_fileDeeds he with ⟨w, hw, -⟩ | hb | ⟨j, -, hj⟩
    · cases hw
    · cases hb
    · cases hj
  have hentries : (files.flatMap fun e => fileDeeds s e.1 e.2 (maps e.1)).filterMap Deed.entry?
      = fileEntries s maps files := by
    rw [List.filterMap_flatMap]
    exact congrArg (List.flatMap · files) (funext fun e => entries_fileDeeds s e.1 e.2 _)
  rw [filesDeeds_of_answers h, perform_open _ _ hstop, hentries, List.flatMap_assoc]
  rfl

/-- The lines about a report as a whole. -/
def openingLines (r : Report) : List Written :=
  [(.log, summary r), (.log, r.toJson.write Json.compact)]

/-- What a review has come to before it uses any provenance, where every line is taken. -/
theorem seen_openingDeeds (strict : Bool) (h : sources.lint.result = .ok r) :
    seen (perform .open strict {} (openingDeeds sources))
      = (openingLines r, Decision.enter strict {} (.totals r.totals), none) := by
  have hfilter : (openingDeeds sources).filter (fun d => !d.isStart)
      = [.write (.log, summary r), .write (.log, r.toJson.write Json.compact),
          .enter (.totals r.totals)] := by
    simp [openingDeeds_of_ok h]
  rw [seen_perform, hfilter]
  rfl

/-- A review that ends without a fault has nothing more to record. -/
theorem seen_conclude_of_none {sinks : Sinks} {strict : Bool} {x : Trace × Option Fault}
    {ls : List Written} {d : Decision} (h : seen x = (ls, d, none)) :
    seen (conclude sinks strict x) = (ls, d, none) := by
  obtain ⟨t, rfl, hl, hd⟩ := seen_eq_iff.mp h
  exact h

/-- Files with their provenances at hand go on from what was seen before them. -/
theorem seen_perform_append_of_answers {ds : List Deed} {ls : List Written} {d : Decision}
    (h : ∀ e ∈ files, (sources.blame e.1).result = .ok (maps e.1))
    (hds : seen (perform .open s.strict {} ds) = (ls, d, none)) :
    seen (perform .open s.strict {} (ds ++ filesDeeds s sources.fetched files))
      = (ls ++ fileLines s maps files,
          d.enterAll s.strict (fileEntries s maps files), none) := by
  obtain ⟨t, ht, hl, hd⟩ := seen_eq_iff.mp hds
  rw [perform_append, ht, ← hl, ← hd]
  exact seen_filesDeeds_of_answers t h

/-- **A review whose sources answer**, unless the totals settle it: the lines about the report, and
then the files one after the other. -/
theorem seen_run_of_answer (h : sources.Answer r maps) (hn : r.totals.notice? s.strict = none) :
    seen (run s sources .open)
      = (openingLines r ++ fileLines s maps r.files,
          Decision.enterAll s.strict {} (fileEntries s maps r.files), none) := by
  have hweigh : Decision.enter s.strict {} (.totals r.totals) = {} := by
    simp [Decision.enter, Decision.weigh, hn]
  have hopen := seen_openingDeeds s.strict h.lint
  rw [hweigh] at hopen
  rw [seen_run, judgedFiles_of_none h.lint hn]
  exact seen_conclude_of_none (seen_perform_append_of_answers h.blame hopen)

/-- **A review that the totals settle** stops at them, whatever the provenances are. -/
theorem seen_run_of_notice (h : sources.lint.result = .ok r) {n : Notice}
    (hn : r.totals.notice? s.strict = some n) :
    seen (run s sources .open)
      = (openingLines r, Decision.enter s.strict {} (.totals r.totals), none) := by
  rw [seen_run, judgedFiles_of_notice h hn]
  show seen (conclude _ _ (perform _ _ _ (openingDeeds sources ++ []))) = _
  rw [List.append_nil]
  exact seen_conclude_of_none (seen_openingDeeds s.strict h)

end Review

end LintGate
