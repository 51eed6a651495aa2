import LintGate.Proofs.Review.Faults
import LintGate.Proofs.Review.Verdict
import Mathlib.Data.List.Flatten

/-!
# A stricter policy hides no failure

Two settings may agree on everything but the policy: one counts warnings where the other does not,
and one has a longer boundary, so that fewer revisions begin with it and fewer findings are excused.
`Settings.Stricter` is this order. A review under the stricter policy may take another way than the
one under the laxer policy, for the totals may settle the one and not the other, and lines that are
inherited in the one are new in the other. Its reasons are those of the laxer review all the same,
with others in between (`stricter_keeps_reasons`).

The argument goes by what ends a review. A linter that fails gives both the same single reason, and
so does a provenance that is refused, since the files before it are the same in both. What is left
is a file, where a finding that counts under the laxer policy counts under the stricter one
(`reasons_fileEntries_sublist`), and the totals, which settle the stricter review only if they
settle the laxer one too.
-/

namespace LintGate

/-! ## Policies compared -/

/-- **The settings `t` are at least as strict as `s`**: warnings count if they do in `s`, and the
boundary goes on where that of `s` ends. -/
structure Settings.Stricter (s t : Settings) : Prop where
  /-- Warnings are harmless in `s`, or make no difference. -/
  strict : s.strict = false ∨ s.strict = t.strict
  /-- The boundary of `s` begins that of `t`. -/
  base : s.base.toList <+: t.base.toList

namespace Settings.Stricter

variable {s t : Settings}

/-- Where warnings count, they count under a stricter policy. -/
theorem strict_of_strict (h : s.Stricter t) (hs : s.strict = true) : t.strict = true := by
  rcases h.strict with hf | he
  · rw [hs] at hf
    cases hf
  · rw [← he, hs]

/-- **A finding that counts** under a policy counts under a stricter one. -/
theorem counts_of_counts (h : s.Stricter t) (p : Provenance) (f : Finding)
    (hc : (p.brings s.base f && f.matters s.strict) = true) :
    (p.brings t.base f && f.matters t.strict) = true := by
  rw [Bool.and_eq_true] at hc ⊢
  refine ⟨?_, ?_⟩
  · have hbrings := hc.1
    unfold Provenance.brings at hbrings ⊢
    cases hp : p.get? f.line with
    | none => rfl
    | some revision =>
      -- a revision that begins with the longer boundary begins with the shorter one
      simp only [hp, Bool.not_eq_true', ← Bool.not_eq_true, List.isPrefixOf_iff_prefix] at hbrings ⊢
      exact fun ht => hbrings (h.base.trans ht)
  · have hmatters := hc.2
    unfold Finding.matters at hmatters ⊢
    cases hf : f.severity with
    | error => rfl
    | warning => exact h.strict_of_strict (by simpa [hf] using hmatters)

/-- Totals that do not settle a review do not settle a stricter one. -/
theorem notice?_eq_none (h : s.Stricter t) {totals : Totals}
    (hn : totals.notice? s.strict = none) : totals.notice? t.strict = none := by
  rw [Totals.notice?_eq_none_iff] at hn ⊢
  exact hn.imp id fun hw => ⟨h.strict_of_strict hw.1, hw.2⟩

end Settings.Stricter

namespace Review

variable {s t : Settings} {sources : Sources} {r : Report} {maps : String → Provenance}
variable {before behind : Table String (List Finding)} {e : String × List Finding} {f : Fault}

/-! ## The reasons that reviews end with -/

/-- The reasons that some files give. -/
def fileReasons (s : Settings) (maps : String → Provenance)
    (files : Table String (List Finding)) : List String :=
  (fileEntries s maps files).filterMap (Entry.reason? s.strict)

/-- **A stricter policy keeps the reasons of some files**, in their order. -/
theorem reasons_fileEntries_sublist (h : s.Stricter t) (maps : String → Provenance)
    (files : Table String (List Finding)) :
    (fileReasons s maps files).Sublist (fileReasons t maps files) := by
  unfold fileReasons
  rw [reasons_fileEntries, reasons_fileEntries]
  refine List.Sublist.flatMap_right _ fun e _ => List.Sublist.map _ ?_
  exact List.monotone_filter_right _ fun f hf => h.counts_of_counts (maps e.1) f hf

/-- The reason that a fault adds to a review, unless the fault leaves it. -/
def recordedReason (f : Fault) : List String := if f.isRecorded then [f.reason] else []

/-- **A fault adds its reason** to what was decided before it. -/
theorem reasons_conclude_of_fault {strict : Bool} {x : Trace × Option Fault} {ls : List Written}
    {d : Decision} (h : seen x = (ls, d, some f)) :
    (conclude .open strict x).1.decision.outcome.reasons
      = d.outcome.reasons ++ recordedReason f := by
  unfold recordedReason
  split
  · next hf =>
    rw [decision_of_seen (seen_conclude_of_fault hf h)]
    rfl
  · next hf => rw [decision_of_seen (seen_conclude_of_not_recorded hf h), List.append_nil]

theorem reasons_run_of_lint_error (h : sources.lint.result = .error f) :
    (run s sources .open).1.decision.outcome.reasons = recordedReason f := by
  rw [decision_of_seen (seen_run s sources .open),
    reasons_conclude_of_fault (seen_perform_of_lint_error h)]
  rfl

theorem reasons_run_of_answer (h : sources.Answer r maps)
    (hn : r.totals.notice? s.strict = none) :
    (run s sources .open).1.decision.outcome.reasons = fileReasons s maps r.files := by
  rw [decision_of_seen (seen_run_of_answer h hn), Decision.reasons_enterAll]
  rfl

theorem reasons_run_of_notice {n : Notice} (h : sources.lint.result = .ok r)
    (hn : r.totals.notice? s.strict = some n) :
    (run s sources .open).1.decision.outcome.reasons = [] := by
  rw [decision_of_seen (seen_run_of_notice h hn)]
  simp [Decision.enter, Decision.weigh, hn]

theorem reasons_run_of_refusal (h : sources.Refuse r maps before e behind f)
    (hn : r.totals.notice? s.strict = none) :
    (run s sources .open).1.decision.outcome.reasons
      = fileReasons s maps before ++ recordedReason f.passedOn := by
  rw [decision_of_seen (seen_run s sources .open),
    reasons_conclude_of_fault (seen_perform_of_refusal h hn), Decision.reasons_enterAll]
  rfl

/-- **A stricter review has the reasons of the laxer one** and may have more, whatever ends it. -/
theorem reasons_run_sublist (h : s.Stricter t) (sources : Sources) :
    (run s sources .open).1.decision.outcome.reasons.Sublist
      (run t sources .open).1.decision.outcome.reasons := by
  cases hl : sources.lint.result with
  | error f => rw [reasons_run_of_lint_error hl, reasons_run_of_lint_error hl]
  | ok r =>
    cases hn : r.totals.notice? s.strict with
    | some n =>
      rw [reasons_run_of_notice hl hn]
      exact List.nil_sublist _
    | none =>
      have hn' := h.notice?_eq_none hn
      rcases sources.answer_or_refuse hl with ha | ⟨before, e, behind, f, hr⟩
      · rw [reasons_run_of_answer ha hn, reasons_run_of_answer ha hn']
        exact reasons_fileEntries_sublist h _ _
      · rw [reasons_run_of_refusal hr hn, reasons_run_of_refusal hr hn']
        exact (reasons_fileEntries_sublist h _ _).append_right _

/-- **A stricter policy hides no failure.** Whatever the sources answer or refuse, and in whatever
order a pool goes about the files, the reasons that a review ends with are among those of the review
under a stricter policy, in the same order; and if the one fails, so does the other. -/
theorem stricter_keeps_reasons (s t : Settings) (h : s.Stricter t) (sources : Sources)
    {x y : Trace × Option Fault} (hx : Ends s sources x) (hy : Ends t sources y) :
    x.1.decision.outcome.reasons.Sublist y.1.decision.outcome.reasons ∧
      (x.1.decision.outcome.failed = true → y.1.decision.outcome.failed = true) := by
  have hsublist := reasons_run_sublist h sources
  rw [decision_of_seen hx.seen_eq, decision_of_seen hy.seen_eq]
  refine ⟨hsublist, ?_⟩
  rw [(coherent_run s sources).failed, (coherent_run t sources).failed]
  intro hs ht
  rw [ht] at hsublist
  exact hs (List.sublist_nil.mp hsublist)

/-- A setting under which warnings are harmless, with a short boundary. -/
def lax : Settings := { oneJob with strict := false, base := "ab" }

/-- Two files. In the first, an error, a warning and an error on an older line. -/
def gradedReport : Report where
  totals := { errors := 3, warnings := 1 }
  files := [
    ("a.php", [
      ⟨"a.php", 1, 1, .error, "broken", "Broken"⟩,
      ⟨"a.php", 2, 1, .warning, "style", "Style"⟩,
      ⟨"a.php", 3, 1, .error, "old", "Old"⟩]),
    ("b.php", [finding "b.php"])]

/-- Sources that refuse the provenance of the second file. The third line of the first file was last
touched at a revision that begins with the short boundary only. -/
def gradedSources : Sources where
  lint := .done gradedReport
  blame file := if file = "b.php" then .fail wordless else .done [(3, "abd")]

/-- The laxer review finds one of three reasons, and both end with the refusal. -/
theorem stricter_keeps_reasons_graded :
    lax.Stricter oneJob ∧ Ends lax gradedSources (run lax gradedSources .open) ∧
      Ends oneJob gradedSources (run oneJob gradedSources .open) ∧
      (run lax gradedSources .open).1.decision.outcome.reasons = ["broken", "Refused"] ∧
      (run oneJob gradedSources .open).1.decision.outcome.reasons
        = ["broken", "style", "old", "Refused"] ∧
      (run lax gradedSources .open).1.decision.outcome.reasons.Sublist
        (run oneJob gradedSources .open).1.decision.outcome.reasons ∧
      (run oneJob gradedSources .open).1.decision.outcome.failed = true := by
  have h : lax.Stricter oneJob := ⟨.inl rfl, by decide⟩
  obtain ⟨hsublist, hfailed⟩ := stricter_keeps_reasons lax oneJob h gradedSources .alone .alone
  exact ⟨h, .alone, .alone, rfl, rfl, hsublist, hfailed rfl⟩

end Review

end LintGate
