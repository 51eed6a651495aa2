import LintGate.Proofs.Review.Answers

/-!
# The totals settle no review wrongly

A review whose totals leave nothing to fail it stops before it asks for any provenance. That is a
short cut past the judging of every single finding, and it is taken on the strength of two counts.
`notice_exact` says that it is exact, provided the linter counts its findings right
(`Report.Counted`). Where the short cut is taken, the long way round, `runUnfiltered`, comes to the
same verdict with the same reasons, whatever the boundary and the provenances are. Where it is not
taken, there are provenances with which the review fails.

Nothing in the program checks the linter's counts, so the proviso is not idle.
-/

namespace LintGate

/-! ## What the counts count -/

/-- All findings of a report. -/
def Report.findings (r : Report) : List Finding := r.files.flatMap Prod.snd

/-- How many findings of a report have a severity. -/
def Report.countOf (r : Report) (v : Severity) : Nat := r.findings.countP (·.severity == v)

/-- **A report that is counted right**: its totals are the numbers of its errors and warnings. -/
structure Report.Counted (r : Report) : Prop where
  /-- The errors. -/
  errors : r.totals.errors = r.countOf .error
  /-- The warnings. -/
  warnings : r.totals.warnings = r.countOf .warning

theorem Report.countOf_ne_zero_iff {r : Report} {v : Severity} :
    r.countOf v ≠ 0 ↔ ∃ f ∈ r.findings, f.severity = v := by
  rw [Report.countOf, ← Nat.pos_iff_ne_zero, List.countP_pos_iff]
  simp

/-- **The totals speak for the findings**: in a report that is counted right they settle nothing
exactly when some finding matters. -/
theorem Report.Counted.notice?_eq_none_iff {r : Report} (hr : r.Counted) (strict : Bool) :
    r.totals.notice? strict = none ↔ ∃ f ∈ r.findings, f.matters strict = true := by
  rw [Totals.notice?_eq_none_iff, hr.errors, hr.warnings, countOf_ne_zero_iff,
    countOf_ne_zero_iff]
  constructor
  · rintro (⟨f, hf, hs⟩ | ⟨hstrict, f, hf, hs⟩)
    · exact ⟨f, hf, by rw [Finding.matters, hs]⟩
    · exact ⟨f, hf, by rw [Finding.matters, hs]; exact hstrict⟩
  · rintro ⟨f, hf, hm⟩
    cases hs : f.severity with
    | error => exact .inl ⟨f, hf, hs⟩
    | warning =>
      rw [Finding.matters, hs] at hm
      exact .inr ⟨hm, f, hf, hs⟩

namespace Review

/-! ## The long way round -/

/-- **The plan of a review that does not look at the totals.** -/
def unfilteredPlan (s : Settings) (sources : Sources) : List Deed :=
  attempted sources.lint fun r =>
    .write (.log, summary r) :: .write (.log, r.toJson.write Json.compact) ::
      provenanceDeeds s sources r

/-- A whole review that does not look at the totals. -/
def runUnfiltered (s : Settings) (sources : Sources) (sinks : Sinks) : Trace × Option Fault :=
  conclude sinks s.strict (perform sinks s.strict {} (unfilteredPlan s sources))

variable {s : Settings} {sources : Sources} {r : Report} {maps : String → Provenance}

theorem seen_runUnfiltered_of_answer (h : sources.Answer r maps) :
    seen (runUnfiltered s sources .open)
      = (openingLines r ++ fileLines s maps r.files,
          Decision.enterAll s.strict {} (fileEntries s maps r.files), none) := by
  have hfilter : (unfilteredPlan s sources).filter (fun d => !d.isStart)
      = ((openingLines r).map Deed.write ++ filesDeeds s sources.fetched r.files).filter
          fun d => !d.isStart := by
    rw [unfilteredPlan, attempted_of_ok h.lint]
    simp [openingLines, filter_provenanceDeeds]
  have hperform : seen (perform .open s.strict {} (unfilteredPlan s sources))
      = seen (perform .open s.strict {}
          ((openingLines r).map Deed.write ++ filesDeeds s sources.fetched r.files)) := by
    rw [seen_perform, hfilter, ← seen_perform]
  refine seen_conclude_of_none (hperform.trans ?_)
  exact seen_perform_append_of_answers h.blame rfl

/-- The reasons that a report gives in the end are those of findings that matter. -/
theorem fileEntries_fail_iff :
    (Decision.enterAll s.strict {} (fileEntries s maps r.files)).outcome.failed = true
      ↔ ∃ e ∈ r.files, ∃ f ∈ e.2,
          (maps e.1).brings s.base f = true ∧ f.matters s.strict = true := by
  rw [Decision.failed_enterAll_iff _ _ _ (by simp), Decision.reasons_enterAll,
    reasons_fileEntries]
  simp

/-- **The totals settle no review wrongly.** Where the totals of a report that is counted right
settle it, the review that looks at them and the review that does not end alike, without a failure
and without a reason, whatever the boundary and the provenances are. Where they do not settle it,
there are provenances with which both fail. -/
theorem notice_exact {r : Report} (hr : r.Counted) (strict : Bool) :
    ((r.totals.notice? strict).isSome = true →
      ∀ (s : Settings) (sources : Sources) (maps : String → Provenance),
        s.strict = strict → sources.Answer r maps →
        ∃ t u, run s sources .open = (t, none) ∧ runUnfiltered s sources .open = (u, none) ∧
          t.decision.outcome.shortCircuited = true ∧
          u.decision.outcome.failed = false ∧ u.decision.outcome.reasons = [] ∧
          t.decision.outcome.failed = u.decision.outcome.failed ∧
          t.decision.outcome.reasons = u.decision.outcome.reasons) ∧
    (r.totals.notice? strict = none →
      ∃ maps : String → Provenance, ∀ (s : Settings) (sources : Sources),
        s.strict = strict → sources.Answer r maps →
        ∃ t u, run s sources .open = (t, none) ∧ runUnfiltered s sources .open = (u, none) ∧
          t.decision.outcome.failed = true ∧ u.decision.outcome.failed = true) := by
  constructor
  · rintro hn s sources maps rfl h
    obtain ⟨n, hn⟩ := Option.isSome_iff_exists.mp hn
    obtain ⟨t, ht, -, htd⟩ := seen_eq_iff.mp (seen_run_of_notice h.lint hn)
    obtain ⟨u, hu, -, hud⟩ := seen_eq_iff.mp (seen_runUnfiltered_of_answer (s := s) h)
    -- no finding matters, so none can be a reason, whoever brought it in
    have hnone : ¬ ∃ f ∈ r.findings, f.matters s.strict = true := by
      rw [← hr.notice?_eq_none_iff, hn]
      exact Option.some_ne_none n
    have hfailed : u.decision.outcome.failed = false := by
      rw [hud, ← Bool.not_eq_true, fileEntries_fail_iff]
      rintro ⟨e, he, f, hf, -, hm⟩
      exact hnone ⟨f, List.mem_flatMap.mpr ⟨e, he, hf⟩, hm⟩
    have hreasons : u.decision.outcome.reasons = [] := by
      have hstep := Decision.failed_enterAll_iff s.strict {} (fileEntries s maps r.files) (by simp)
      rw [← hud, hfailed] at hstep
      exact Decidable.byContradiction fun hne => Bool.false_ne_true (hstep.mpr hne)
    have hopen : t.decision
        = { outcome := { shortCircuited := true }, notice := some n } := by
      rw [htd, Decision.enter, Decision.weigh, hn]
    exact ⟨t, u, ht, hu, by rw [hopen], hfailed, hreasons, by rw [hopen, hfailed],
      by rw [hopen, hreasons]⟩
  · intro hn
    obtain ⟨f, hf, hm⟩ := (hr.notice?_eq_none_iff strict).mp hn
    obtain ⟨e, he, hfe⟩ := List.mem_flatMap.mp hf
    -- where nothing is known of any line, every finding counts as brought in
    refine ⟨fun _ => [], ?_⟩
    rintro s sources rfl h
    obtain ⟨t, ht, -, htd⟩ := seen_eq_iff.mp (seen_run_of_answer h hn)
    obtain ⟨u, hu, -, hud⟩ := seen_eq_iff.mp (seen_runUnfiltered_of_answer (s := s) h)
    have hfails : (Decision.enterAll s.strict {}
        (fileEntries s (fun _ => []) r.files)).outcome.failed = true := by
      rw [fileEntries_fail_iff]
      exact ⟨e, he, f, hfe, rfl, hm⟩
    exact ⟨t, u, ht, hu, htd ▸ hfails, hud ▸ hfails⟩

/-- A report with one warning, counted right. -/
def warningReport : Report where
  totals := { warnings := 1 }
  files := [("a.php", []), ("b.php", [⟨"b.php", 1, 1, .warning, "style", "Generic.Style"⟩])]

/-- The totals settle the report where warnings are harmless, and do not where they count. -/
theorem notice_exact_warning :
    warningReport.Counted ∧
      (∃ t u, run ⟨.ofString "phpcs", none, false, "abc", 1, .root⟩
          (.answering warningReport fun _ => [(1, "def")]) .open = (t, none) ∧
        runUnfiltered ⟨.ofString "phpcs", none, false, "abc", 1, .root⟩
          (.answering warningReport fun _ => [(1, "def")]) .open = (u, none) ∧
        t.decision.outcome.shortCircuited = true ∧
        t.decision.outcome.failed = u.decision.outcome.failed) ∧
      ∃ (maps : String → Provenance) (u : Trace),
        runUnfiltered ⟨.ofString "phpcs", none, true, "abc", 1, .root⟩
          (.answering warningReport maps) .open = (u, none) ∧
        u.decision.outcome.failed = true := by
  have hr : warningReport.Counted := ⟨by decide, by decide⟩
  refine ⟨hr, ?_, ?_⟩
  · obtain ⟨t, u, ht, hu, hshort, -, -, hf, -⟩ := (notice_exact hr false).1 (by decide)
      ⟨.ofString "phpcs", none, false, "abc", 1, .root⟩ _ _ rfl
      (Sources.answer_answering warningReport fun _ => [(1, "def")])
    exact ⟨t, u, ht, hu, hshort, hf⟩
  · obtain ⟨maps, hmaps⟩ := (notice_exact hr true).2 (by decide)
    obtain ⟨-, u, -, hu, -, hf⟩ := hmaps ⟨.ofString "phpcs", none, true, "abc", 1, .root⟩ _ rfl
      (Sources.answer_answering warningReport maps)
    exact ⟨maps, u, hu, hf⟩

end Review

end LintGate
