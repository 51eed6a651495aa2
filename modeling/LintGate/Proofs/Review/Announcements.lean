import LintGate.Proofs.Review.Answers

/-!
# What a review announces

A problem matcher and the log of failures read what a review writes line by line, so its order is
the whole of its meaning: an annotation belongs to the marker above it, and a reason to the
annotation right before it. `run_announces` states what is written when all sources answer, every
line is taken and the totals do not settle the review. The announcements of the files follow one
another in the order of the report (`announcements`), and so do their logs (`fileLog`); the
decision holds the reasons that were announced, and counts every file.

The number of jobs plays no part, since it decides only when commands are started.
-/

namespace LintGate

namespace Review

/-- The reasons among some lines. -/
def reasonsIn (ls : List Written) : List String :=
  (ls.filter fun w => w.1 == .failure).map Prod.snd

theorem reasonsIn_append (ls ms : List Written) :
    reasonsIn (ls ++ ms) = reasonsIn ls ++ reasonsIn ms := by
  rw [reasonsIn, List.filter_append, List.map_append]
  rfl

/-- **The reasons written are the reasons given**, by deeds that write no reason of their own. -/
theorem reasonsIn_lines (strict : Bool) {ds : List Deed}
    (h : ∀ w, Deed.write w ∈ ds → w.1 ≠ .failure) :
    reasonsIn (ds.flatMap (Deed.lines strict))
      = (ds.filterMap Deed.entry?).filterMap (Entry.reason? strict) := by
  induction ds with
  | nil => rfl
  | cons d ds ih =>
    have ih := ih fun w hw => h w (List.mem_cons_of_mem _ hw)
    rw [List.flatMap_cons, reasonsIn_append, ih, List.filterMap_cons]
    cases d with
    | start c => rfl
    | write w =>
      have hw : w.1 ≠ .failure := h w List.mem_cons_self
      simp [Deed.lines, Deed.entry?, reasonsIn, hw]
    | enter e =>
      cases hr : e.reason? strict <;> simp [Deed.lines, Deed.entry?, reasonsIn, hr]
    | stop f => rfl

variable {s : Settings} {sources : Sources} {r : Report} {maps : String → Provenance}

/-- **What a review announces.** When its sources answer, every line is taken and the totals do not
settle it, a review ends without a fault. A finding is new exactly when nothing is known of its line
or the revision of its line does not begin with the boundary. What is announced and what is logged
are, file by file, what `announcements` and `fileLog` say; the reasons decided on are the reasons
announced, and every file is counted. -/
theorem run_announces (h : sources.Answer r maps) (hn : r.totals.notice? s.strict = none) :
    ∃ t, run s sources .open = (t, none) ∧
      (∀ (p : Provenance) (f : Finding), p.origin s.base f = .introduced ↔
        p.get? f.line = none ∨
          ∃ revision, p.get? f.line = some revision ∧ ¬ s.base.toList <+: revision.toList) ∧
      announced t.lines = r.files.flatMap (fun e => announcements s e.1 e.2 (maps e.1)) ∧
      logged t.lines
        = openingLines r ++ r.files.flatMap (fun e => fileLog s e.1 e.2 (maps e.1)) ∧
      t.decision.outcome.reasons = reasonsIn t.lines ∧
      (t.decision.outcome.failed = true ↔ t.decision.outcome.reasons ≠ []) ∧
      t.decision.outcome.filesBlamed = r.files.length ∧
      t.decision.outcome.shortCircuited = false := by
  obtain ⟨t, ht, hl, hd⟩ := seen_eq_iff.mp (seen_run_of_answer h hn)
  refine ⟨t, ht, ?_, ?_, ?_, ?_, ?_, ?_, ?_⟩
  · intro p f
    unfold Provenance.origin Provenance.isSettled
    cases p.get? f.line <;> simp
  · rw [hl, announced_append, fileLines, announced_flatMap]
    simp only [announced_fileDeeds]
    rfl
  · rw [hl, logged_append, fileLines, logged_flatMap]
    simp only [logged_fileDeeds]
    rfl
  · have hnone : ∀ w, Deed.write w ∈ r.files.flatMap
        (fun e => fileDeeds s e.1 e.2 (maps e.1)) → w.1 ≠ .failure := by
      intro w hw
      obtain ⟨e, -, he⟩ := List.mem_flatMap.mp hw
      rcases mem_fileDeeds he with ⟨v, hv, hc⟩ | hb | ⟨j, -, hj⟩
      · cases hv
        exact hc
      · cases hb
      · cases hj
    rw [hd, Decision.reasons_enterAll, hl, reasonsIn_append, fileLines, ← List.flatMap_assoc,
      reasonsIn_lines s.strict hnone, List.filterMap_flatMap]
    simp only [entries_fileDeeds]
    rfl
  · rw [hd]
    exact Decision.failed_enterAll_iff _ _ _ (by simp)
  · rw [hd, Decision.filesBlamed_enterAll, count_blamed_fileEntries]
    exact Nat.zero_add _
  · rw [hd]
    exact Decision.shortCircuited_enterAll _ _ _
      fun t ht => absurd ht (totals_not_mem_fileEntries s maps r.files t)

/-- Two files: the first mixes findings of all kinds, the second has nothing new. -/
def mixedReport : Report where
  totals := { errors := 3, warnings := 1 }
  files := [
    ("/repo/src/a.php", [
      ⟨"/repo/src/a.php", 5, 1, .error, "old", "Generic.Old"⟩,
      ⟨"/repo/src/a.php", 9, 2, .warning, "style", "Style"⟩,
      ⟨"/repo/src/a.php", 12, 3, .error, "broken", "Broken"⟩]),
    ("/repo/b.php", [⟨"/repo/b.php", 1, 1, .error, "old", "Generic.Old"⟩])]

/-- Line 9 was touched later, nothing is known of line 12, and all else is as old as the
boundary. -/
def mixedMaps (file : String) : Provenance :=
  if file = "/repo/src/a.php" then [(5, "abc10"), (9, "def20")] else [(1, "abc1")]

/-- Settings under which warnings are harmless. -/
def mixedSettings : Settings where
  linter := .ofString "phpcs"
  standard := none
  strict := false
  base := "abc1"
  jobs := 1
  root := .ofString "/repo"

theorem run_announces_mixed :
    mixedReport.totals.notice? mixedSettings.strict = none ∧
      ∃ t, run mixedSettings (.answering mixedReport mixedMaps) .open = (t, none) ∧
        announced t.lines = [
          (.primary, "<file name=\"src/a.php\">"),
          (.primary, "<error line=\"9\" column=\"2\" severity=\"warning\" " ++
            "message=\"style\" source=\"Style\"/>"),
          (.primary, "<error line=\"12\" column=\"3\" severity=\"error\" " ++
            "message=\"broken\" source=\"Broken\"/>"),
          (.failure, "broken")] ∧
        t.decision.outcome.filesBlamed = 2 := by
  have hn : mixedReport.totals.notice? mixedSettings.strict = none := by decide
  obtain ⟨t, ht, -, ha, -, -, -, hb, -⟩ :=
    run_announces (Sources.answer_answering mixedReport mixedMaps) hn
  exact ⟨hn, t, ht, ha.trans (by rfl), hb⟩

end Review

end LintGate
