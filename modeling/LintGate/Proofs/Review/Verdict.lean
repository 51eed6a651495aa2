import LintGate.Proofs.Review.Answers
import LintGate.Proofs.Review.Announcements

/-!
# The verdict of a review

The verdict of a review is told three times over: by the reasons that are announced while it goes
on, by the reasons it has decided on in the end, and by whether it failed. A trace is `Coherent`
when the three say the same, and when a short circuit comes with its notice and a notice with its
short circuit. Every deed that the review plans keeps a trace coherent (`Coherent.perform`), so
every review is (`coherent_run`), also one that a fault ends.

What is kept by the deeds of a review is kept by the review: `run_induction` says so once, and
`Planned` tells what deeds there are. A review that was short-circuited has asked for no provenance
and has not failed (`calls_run_of_shortCircuited`).
-/

namespace LintGate

namespace Review

variable {s : Settings} {sources : Sources} {sinks : Sinks} {strict : Bool}

/-! ## What the deeds keep -/

/-- **What every deed keeps is kept by all of them together**, however far they get. -/
theorem perform_induction {P : Trace → Prop} {ds : List Deed}
    (step : ∀ d ∈ ds, ∀ t, P t → P (d.perform sinks strict t).1) {t : Trace} (h : P t) :
    P (perform sinks strict t ds).1 := by
  induction ds generalizing t with
  | nil => exact h
  | cons d ds ih =>
    have hd := step d List.mem_cons_self t h
    have hds := fun e he => step e (List.mem_cons_of_mem _ he)
    rw [perform]
    cases hp : d.perform sinks strict t with
    | mk u f =>
      rw [hp] at hd
      cases f with
      | none => exact ih hds hd
      | some f => exact hd

/-- **What every planned deed keeps, and the recording of a fault keeps, is kept by the review.** -/
theorem run_induction {P : Trace → Prop} (init : P {})
    (planned : ∀ d ∈ plan s sources, ∀ t, P t → P (d.perform sinks s.strict t).1)
    (recorded : ∀ f, ∀ d ∈ faultDeeds f, ∀ t, P t → P (d.perform sinks s.strict t).1) :
    P (run s sources sinks).1 := by
  have hplan : P (perform sinks s.strict {} (plan s sources)).1 := perform_induction planned init
  rw [run]
  cases hp : perform sinks s.strict {} (plan s sources) with
  | mk t f =>
    rw [hp] at hplan
    cases f with
    | none => exact hplan
    | some f =>
      rw [conclude]
      split
      · exact perform_induction (recorded f) hplan
      · exact hplan

/-! ## What a review plans -/

/-- **The deeds that a review may plan**: none writes a reason, and every fault is one of a
source, that of a provenance as an iteration passes it on. -/
inductive Planned (sources : Sources) : Deed → Prop
  | start (c : Call) : Planned sources (.start c)
  | write (w : Written) (channel : w.1 ≠ .failure) : Planned sources (.write w)
  | totals (r : Report) (lint : sources.lint.result = .ok r) :
      Planned sources (.enter (.totals r.totals))
  | blamed : Planned sources (.enter .blamed)
  | finding (j : Judged) : Planned sources (.enter (.finding j))
  | lintFault (f : Fault) (lint : sources.lint.result = .error f) : Planned sources (.stop f)
  | blameFault (file : String) (f : Fault) (blame : (sources.blame file).result = .error f) :
      Planned sources (.stop f.passedOn)

theorem planned_of_mem_attempted {α : Type} {x : Attempt α} {next : α → List Deed} {d : Deed}
    (h : d ∈ attempted x next) (ok : ∀ a, x.result = .ok a → d ∈ next a → Planned sources d)
    (error : ∀ f, x.result = .error f → Planned sources (.stop f)) : Planned sources d := by
  rw [attempted, List.mem_append] at h
  rcases h with hstart | hnext
  · obtain ⟨c, -, rfl⟩ := List.mem_map.mp hstart
    exact .start c
  · cases hx : x.result with
    | ok a => exact ok a hx (by simpa [hx] using hnext)
    | error f =>
      obtain rfl : d = .stop f := by simpa [hx] using hnext
      exact error f hx

theorem planned_of_mem_filesDeeds {files : Table String (List Finding)} {d : Deed}
    (h : d ∈ filesDeeds s sources files) : Planned sources d := by
  obtain ⟨e, -, he⟩ := List.mem_flatMap.mp h
  refine planned_of_mem_attempted he ?_ ?_
  · intro p _ hd
    rcases mem_fileDeeds hd with ⟨w, rfl, hw⟩ | rfl | ⟨j, -, rfl⟩
    · exact .write w hw
    · exact .blamed
    · exact .finding j
  · intro g hg
    obtain ⟨f, hf, rfl⟩ := Attempt.result_passedOn_eq_error_iff.1 hg
    exact .blameFault e.1 f hf

/-- Provenances that were asked for ahead are refused as they would be later. -/
theorem Planned.of_fetched {d : Deed} (h : Planned sources.fetched d) : Planned sources d := by
  cases h with
  | start c => exact .start c
  | write w channel => exact .write w channel
  | totals r lint => exact .totals r lint
  | blamed => exact .blamed
  | finding j => exact .finding j
  | lintFault f lint => exact .lintFault f lint
  | blameFault file f blame => exact .blameFault file f blame

/-- **Every deed of a plan is one that a review may plan.** -/
theorem planned_of_mem_plan {d : Deed} (h : d ∈ plan s sources) : Planned sources d := by
  refine planned_of_mem_attempted h ?_ fun f hf => .lintFault f hf
  intro r hr hd
  simp only [reportDeeds, List.mem_cons] at hd
  rcases hd with rfl | rfl | rfl | hd
  · exact .write _ (by simp)
  · exact .write _ (by simp)
  · exact .totals r hr
  · split at hd
    · cases hd
    · rw [provenanceDeeds] at hd
      split at hd
      · rcases List.mem_append.mp hd with hstart | hfile
        · obtain ⟨file, -, hc⟩ := List.mem_flatMap.mp hstart
          obtain ⟨c, -, rfl⟩ := List.mem_map.mp hc
          exact .start c
        · exact (planned_of_mem_filesDeeds hfile).of_fetched
      · exact planned_of_mem_filesDeeds hd

/-! ## Coherent traces -/

/-- **A trace that tells one verdict**: the reasons announced are the reasons decided on, the review
failed exactly if there are any, and a short circuit has its notice. -/
structure Coherent (t : Trace) : Prop where
  reasons : reasonsIn t.lines = t.decision.outcome.reasons
  failed : t.decision.outcome.failed = true ↔ t.decision.outcome.reasons ≠ []
  shortCircuited : t.decision.outcome.shortCircuited = t.decision.notice.isSome

theorem coherent_empty : Coherent {} := ⟨rfl, by simp, rfl⟩

/-- **A deed keeps a trace coherent**, where every line is taken, unless it writes a reason of its
own. -/
theorem Coherent.perform {t : Trace} (h : Coherent t) {d : Deed}
    (hd : ∀ w, d = .write w → w.1 ≠ .failure) : Coherent (d.perform .open strict t).1 := by
  cases d with
  | start c => exact ⟨h.reasons, h.failed, h.shortCircuited⟩
  | write w =>
    have hw : reasonsIn [w] = [] := by simp [reasonsIn, hd w rfl]
    refine ⟨?_, h.failed, h.shortCircuited⟩
    show reasonsIn (t.lines ++ [w]) = _
    rw [reasonsIn_append, hw, List.append_nil]
    exact h.reasons
  | enter e =>
    have hfailed : (Decision.enter strict t.decision e).outcome.failed = true
        ↔ (Decision.enter strict t.decision e).outcome.reasons ≠ [] := by
      rw [Decision.failed_enter, Decision.reasons_enter]
      cases e.reason? strict <;> simp [h.failed]
    have hshort : (Decision.enter strict t.decision e).outcome.shortCircuited
        = (Decision.enter strict t.decision e).notice.isSome := by
      rw [Decision.shortCircuited_enter, Decision.isSome_notice_enter, h.shortCircuited]
    have hreasons := Decision.reasons_enter strict t.decision e
    cases hr : e.reason? strict with
    | none =>
      rw [hr, Option.toList_none, List.append_nil] at hreasons
      simp only [Deed.perform, hr]
      exact ⟨h.reasons.trans hreasons.symm, hfailed, hshort⟩
    | some reason =>
      rw [hr, Option.toList_some] at hreasons
      simp only [Deed.perform, hr, Trace.offer_open]
      refine ⟨?_, hfailed, hshort⟩
      rw [reasonsIn_append, h.reasons, hreasons]
      rfl
  | stop f => exact h

/-- **Every review tells one verdict**, where every line is taken. -/
theorem coherent_run (s : Settings) (sources : Sources) :
    Coherent (run s sources .open).1 := by
  refine run_induction coherent_empty ?_ ?_
  · intro d hd t ht
    refine ht.perform ?_
    rintro w rfl
    cases planned_of_mem_plan hd with
    | write w channel => exact channel
  · intro f d hd t ht
    refine ht.perform ?_
    rintro w rfl
    simp only [faultDeeds, List.mem_cons, List.not_mem_nil, or_false] at hd
    rcases hd with hw | he
    · cases hw
      simp
    · cases he

/-! ## Reviews that end well -/

/-- Where every line is taken, a fault comes from the deeds. -/
theorem stop_mem_of_perform_open {t u : Trace} {ds : List Deed} {f : Fault}
    (h : perform .open strict t ds = (u, some f)) : Deed.stop f ∈ ds := by
  induction ds generalizing t with
  | nil => cases h
  | cons d ds ih =>
    rw [perform] at h
    cases d with
    | start c => exact List.mem_cons_of_mem _ (ih h)
    | write w => exact List.mem_cons_of_mem _ (ih h)
    | enter e =>
      cases hr : e.reason? strict <;> simp only [Deed.perform, hr, Trace.offer_open] at h <;>
        exact List.mem_cons_of_mem _ (ih h)
    | stop g =>
      cases h
      exact List.mem_cons_self

/-- **No fault is left over** from a review whose sources are not interrupted, where every line is
taken. -/
theorem run_eq_of_recorded (hl : ∀ f, sources.lint.result = .error f → f.isRecorded = true)
    (hb : ∀ file f, (sources.blame file).result = .error f → f.isRecorded = true) :
    run s sources .open = ((run s sources .open).1, none) := by
  refine Prod.ext rfl ?_
  rw [run]
  cases hp : perform .open s.strict {} (plan s sources) with
  | mk t f =>
    cases f with
    | none => rfl
    | some f =>
      have hf : f.isRecorded = true := by
        cases planned_of_mem_plan (stop_mem_of_perform_open hp) with
        | lintFault f lint => exact hl f lint
        | blameFault file g blame => exact g.isRecorded_passedOn.trans (hb file g blame)
      rw [conclude, if_pos hf]
      rfl

/-! ## Short circuits -/

/-- What a deed decides, where every line is taken. -/
theorem decision_perform_open (t : Trace) (d : Deed) :
    (d.perform .open strict t).1.decision = t.decision.enterAll strict d.entry?.toList := by
  cases d with
  | start c => rfl
  | write w => rfl
  | enter e =>
    cases hr : e.reason? strict <;> simp [Deed.perform, hr, Deed.entry?, Decision.enterAll]
  | stop f => rfl

/-- **A review that the totals settle** starts the linter's commands and no others. -/
theorem calls_run_of_notice {r : Report} {n : Notice} (h : sources.lint.result = .ok r)
    (hn : r.totals.notice? s.strict = some n) :
    (run s sources .open).1.calls = sources.lint.calls := by
  have hplan : plan s sources = sources.lint.calls.map Deed.start ++
      [.write (.log, summary r), .write (.log, r.toJson.write Json.compact),
        .enter (.totals r.totals)] := by
    rw [plan_of_ok h]
    simp [reportDeeds, hn]
  have hstop : ∀ f, Deed.stop f ∉ plan s sources := by
    rw [hplan]
    simp
  rw [run, perform_open s.strict {} hstop, hplan]
  simp [conclude, List.filterMap_map, Function.comp_def, Deed.call?, List.filterMap_cons]

/-- A review whose totals settle nothing is not short-circuited. -/
theorem shortCircuited_run_of_none
    (h : ∀ r, sources.lint.result = .ok r → r.totals.notice? s.strict = none) :
    (run s sources .open).1.decision.outcome.shortCircuited = false := by
  -- no deed enters totals that settle anything, so the mark is never set
  refine run_induction (P := fun t => t.decision.outcome.shortCircuited = false) rfl ?_ ?_
  · intro d hd t ht
    rw [decision_perform_open, Decision.shortCircuited_enterAll _ _ _ ?_, ht]
    intro totals htotals
    cases planned_of_mem_plan hd with
    | totals r lint =>
      obtain rfl : totals = r.totals := by simpa [Deed.entry?] using htotals
      exact h r lint
    | _ => simp [Deed.entry?] at htotals
  · intro f d hd t ht
    rw [decision_perform_open, Decision.shortCircuited_enterAll _ _ _ ?_, ht]
    intro totals htotals
    simp only [faultDeeds, List.mem_cons, List.not_mem_nil, or_false] at hd
    rcases hd with rfl | rfl <;> simp [Deed.entry?] at htotals

/-- **Only the totals short-circuit a review.** One that is short-circuited has started the
linter's commands and no others, and has not failed. -/
theorem calls_run_of_shortCircuited
    (h : (run s sources .open).1.decision.outcome.shortCircuited = true) :
    (run s sources .open).1.calls = sources.lint.calls ∧
      (run s sources .open).1.decision.outcome.failed = false := by
  cases hl : sources.lint.result with
  | error f => simp [shortCircuited_run_of_none, hl] at h
  | ok r =>
    cases hn : r.totals.notice? s.strict with
    | none => simp [shortCircuited_run_of_none, hl, hn] at h
    | some n =>
      refine ⟨calls_run_of_notice hl hn, ?_⟩
      obtain ⟨t, ht, -, hd⟩ := seen_eq_iff.mp (seen_run_of_notice hl hn)
      rw [ht, hd]
      simp [Decision.enter, Decision.weigh, hn]

end Review

end LintGate
