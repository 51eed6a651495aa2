import LintGate.Review

/-!
# What deeds come to

`Review.perform` does deeds one after the other and stops at the first fault. Two laws let its
results be read off the deeds without doing them. Where every line is taken, deeds without a fault
add their lines, their commands and their entries, each in their order (`perform_open`). And
commands leave no mark: whatever the channels do, what is seen of a review, which is its lines, its
decision and the fault that it ends with, is settled by the deeds that are no commands
(`seen_perform`).

The second law gives every review one working form, `seen_run`: what comes before the first
provenance is used, and then the files one after the other. The number of jobs is not in it.
-/

namespace LintGate

/-! ## Entries -/

/-- The entry is of totals that settle a run. -/
def Entry.settles (strict : Bool) : Entry → Bool
  | .totals t => (t.notice? strict).isSome
  | _ => false

namespace Decision

/-- **Reasons add up** over entries. -/
theorem reasons_enterAll (strict : Bool) (d : Decision) (es : List Entry) :
    (d.enterAll strict es).outcome.reasons
      = d.outcome.reasons ++ es.filterMap (Entry.reason? strict) := by
  induction es generalizing d with
  | nil => simp [enterAll]
  | cons e es ih =>
    have h := ih (enter strict d e)
    rw [reasons_enter] at h
    rw [enterAll, List.foldl_cons, ← enterAll, h, List.append_assoc]
    cases hr : e.reason? strict <;> simp [hr]

/-- An entry makes a run fail exactly when it gives a reason. -/
theorem failed_enter (strict : Bool) (d : Decision) (e : Entry) :
    (enter strict d e).outcome.failed = (d.outcome.failed || (e.reason? strict).isSome) := by
  cases e with
  | totals t => cases h : t.notice? strict <;> simp [enter, weigh, Entry.reason?, h]
  | finding j => cases h : j.counts strict <;> simp [enter, fail, Entry.reason?, h]
  | blamed => simp [enter, Entry.reason?]
  | fault f => simp [enter, fail, Entry.reason?]

/-- **A run that has not failed fails with the first reason**: the verdict and the reasons stay in
step over entries. -/
theorem failed_enterAll_iff (strict : Bool) (d : Decision) (es : List Entry)
    (h : d.outcome.failed = true ↔ d.outcome.reasons ≠ []) :
    (d.enterAll strict es).outcome.failed = true
      ↔ (d.enterAll strict es).outcome.reasons ≠ [] := by
  induction es generalizing d with
  | nil => exact h
  | cons e es ih =>
    refine ih (enter strict d e) ?_
    rw [failed_enter, reasons_enter]
    cases e.reason? strict <;> simp [h]

/-- An entry short-circuits a run exactly when it is of totals that settle it. -/
theorem shortCircuited_enter (strict : Bool) (d : Decision) (e : Entry) :
    (enter strict d e).outcome.shortCircuited
      = (d.outcome.shortCircuited || e.settles strict) := by
  cases e with
  | totals t => cases h : t.notice? strict <;> simp [enter, weigh, Entry.settles, h]
  | finding j => cases h : j.counts strict <;> simp [enter, fail, Entry.reason?, Entry.settles, h]
  | blamed => simp [enter, Entry.settles]
  | fault f => simp [enter, fail, Entry.reason?, Entry.settles]

/-- There is a notice behind an entry exactly when there was one or the entry settles the run. -/
theorem isSome_notice_enter (strict : Bool) (d : Decision) (e : Entry) :
    (enter strict d e).notice.isSome = (d.notice.isSome || e.settles strict) := by
  cases e with
  | totals t => cases h : t.notice? strict <;> simp [enter, weigh, Entry.settles, h]
  | finding j => cases h : j.counts strict <;> simp [enter, fail, Entry.reason?, Entry.settles, h]
  | blamed => simp [enter, Entry.settles]
  | fault f => simp [enter, fail, Entry.reason?, Entry.settles]

/-- Only totals tell of a short circuit, and only those that settle a run. -/
theorem shortCircuited_enterAll (strict : Bool) (d : Decision) (es : List Entry)
    (h : ∀ t, Entry.totals t ∈ es → t.notice? strict = none) :
    (d.enterAll strict es).outcome.shortCircuited = d.outcome.shortCircuited := by
  induction es generalizing d with
  | nil => rfl
  | cons e es ih =>
    have hsettles : e.settles strict = false := by
      cases e with
      | totals t => simp [Entry.settles, h t List.mem_cons_self]
      | _ => rfl
    rw [enterAll, List.foldl_cons, ← enterAll,
      ih _ (fun t ht => h t (List.mem_cons_of_mem _ ht)), shortCircuited_enter, hsettles,
      Bool.or_false]

/-- An entry counts the file that it is of. -/
theorem filesBlamed_enter (strict : Bool) (d : Decision) (e : Entry) :
    (enter strict d e).outcome.filesBlamed
      = d.outcome.filesBlamed + if e = .blamed then 1 else 0 := by
  cases e with
  | totals t => cases h : t.notice? strict <;> simp [enter, weigh, h]
  | finding j => cases h : j.counts strict <;> simp [enter, fail, Entry.reason?, h]
  | blamed => rfl
  | fault f => simp [enter, fail, Entry.reason?]

/-- The files counted are those that were entered. -/
theorem filesBlamed_enterAll (strict : Bool) (d : Decision) (es : List Entry) :
    (d.enterAll strict es).outcome.filesBlamed = d.outcome.filesBlamed + es.count .blamed := by
  induction es generalizing d with
  | nil => rfl
  | cons e es ih =>
    rw [enterAll, List.foldl_cons, ← enterAll, ih, filesBlamed_enter, List.count_cons,
      Nat.add_assoc, Nat.add_comm (es.count .blamed)]
    simp only [beq_iff_eq]

end Decision

namespace Review

/-! ## Deeds where every line is taken -/

namespace Deed

/-- The command that a deed starts. -/
def call? : Deed → Option Call
  | .start c => some c
  | _ => none

/-- The entry that a deed makes. -/
def entry? : Deed → Option Entry
  | .enter e => some e
  | _ => none

/-- **The lines of a deed**: the one it writes, or the reason that its entry gives. -/
def lines (strict : Bool) : Deed → List Written
  | .write w => [w]
  | .enter e => (e.reason? strict).toList.map fun reason => (.failure, reason)
  | _ => []

/-- The deed starts a command. -/
def isStart : Deed → Bool
  | .start _ => true
  | _ => false

@[simp] theorem isStart_start (c : Call) : (start c).isStart = true := rfl

@[simp] theorem isStart_write (w : Written) : (write w).isStart = false := rfl

@[simp] theorem isStart_enter (e : Entry) : (enter e).isStart = false := rfl

@[simp] theorem isStart_stop (f : Fault) : (stop f).isStart = false := rfl

end Deed

/-- **Deeds without a fault, where every line is taken**, add their commands, lines and entries. -/
theorem perform_open (strict : Bool) (t : Trace) {ds : List Deed} (h : ∀ f, Deed.stop f ∉ ds) :
    perform .open strict t ds
      = ({ calls := t.calls ++ ds.filterMap Deed.call?
           lines := t.lines ++ ds.flatMap (Deed.lines strict)
           decision := t.decision.enterAll strict (ds.filterMap Deed.entry?) }, none) := by
  induction ds generalizing t with
  | nil => simp [perform, Decision.enterAll]
  | cons d ds ih =>
    have hds : ∀ f, Deed.stop f ∉ ds := fun f hf => h f (List.mem_cons_of_mem _ hf)
    cases d with
    | start c =>
      simp [perform, Deed.perform, ih _ hds, List.filterMap_cons, Deed.call?, Deed.lines,
        Deed.entry?]
    | write w =>
      simp [perform, Deed.perform, ih _ hds, List.filterMap_cons, Deed.call?, Deed.lines,
        Deed.entry?]
    | enter e =>
      cases hr : e.reason? strict <;>
        simp [perform, Deed.perform, hr, ih _ hds, List.filterMap_cons, Deed.call?, Deed.lines,
          Deed.entry?, Decision.enterAll]
    | stop f => exact absurd List.mem_cons_self (h f)

/-! ## Commands leave no mark -/

/-- **What is seen of a review**: its lines, its decision, and the fault it ends with. When its
commands were started is not seen. -/
def seen (x : Trace × Option Fault) : List Written × Decision × Option Fault :=
  (x.1.lines, x.1.decision, x.2)

theorem seen_eq_iff {x : Trace × Option Fault} {ls : List Written} {d : Decision}
    {f : Option Fault} :
    seen x = (ls, d, f) ↔ ∃ t, x = (t, f) ∧ t.lines = ls ∧ t.decision = d := by
  constructor
  · intro h
    have hf : x.2 = f := congrArg (·.2.2) h
    exact ⟨x.1, Prod.ext rfl hf, congrArg (·.1) h, congrArg (·.2.1) h⟩
  · rintro ⟨t, rfl, rfl, rfl⟩
    rfl

/-- The lines of a review are seen. -/
theorem lines_of_seen {x : Trace × Option Fault} {ls : List Written} {d : Decision}
    {f : Option Fault} (h : seen x = (ls, d, f)) : x.1.lines = ls := congrArg (·.1) h

/-- What a review decides is seen. -/
theorem decision_of_seen {x : Trace × Option Fault} {ls : List Written} {d : Decision}
    {f : Option Fault} (h : seen x = (ls, d, f)) : x.1.decision = d := congrArg (·.2.1) h

/-- A trace without its commands. -/
def Trace.quiet (t : Trace) : Trace := { t with calls := [] }

/-- A deed that is no command does the same, whatever was started before. -/
theorem Deed.perform_quiet (sinks : Sinks) (strict : Bool) (t : Trace) {d : Deed}
    (h : d.isStart = false) :
    d.perform sinks strict t.quiet
      = ((d.perform sinks strict t).1.quiet, (d.perform sinks strict t).2) := by
  have offer_quiet : ∀ (u : Trace) (w : Written),
      u.quiet.offer sinks w = ((u.offer sinks w).1.quiet, (u.offer sinks w).2) := by
    intro u w
    have htaken : u.quiet.taken w.1 = u.taken w.1 := rfl
    unfold Trace.offer
    rw [htaken]
    cases sinks w.1 (u.taken w.1) <;> rfl
  cases d with
  | start c => cases h
  | write w => exact offer_quiet t w
  | enter e =>
    simp only [Deed.perform]
    cases e.reason? strict with
    | none => rfl
    | some reason => exact offer_quiet { t with decision := t.decision.enter strict e } _
  | stop f => rfl

/-- **Commands leave no mark** on what is seen of a review. -/
theorem seen_perform (sinks : Sinks) (strict : Bool) (t : Trace) (ds : List Deed) :
    seen (perform sinks strict t ds)
      = seen (perform sinks strict t.quiet (ds.filter fun d => !d.isStart)) := by
  induction ds generalizing t with
  | nil => rfl
  | cons d ds ih =>
    cases hd : d.isStart with
    | true =>
      -- a command changes the commands of the trace, which the other side has dropped anyway
      obtain ⟨c, rfl⟩ : ∃ c, d = .start c := by cases d <;> simp_all
      rw [List.filter_cons_of_neg (by simp [hd])]
      exact ih { t with calls := t.calls ++ [c] }
    | false =>
      rw [List.filter_cons_of_pos (by simp [hd])]
      simp only [perform, Deed.perform_quiet sinks strict t hd]
      obtain ⟨u, _ | f⟩ := d.perform sinks strict t
      · exact ih u
      · rfl

/-- What is seen at the end is settled by what was seen before. -/
theorem seen_conclude {sinks : Sinks} {strict : Bool} {x y : Trace × Option Fault}
    (h : seen x = seen y) : seen (conclude sinks strict x) = seen (conclude sinks strict y) := by
  obtain ⟨t, f⟩ := x
  obtain ⟨u, g⟩ := y
  obtain ⟨hl, hd, hf⟩ : t.lines = u.lines ∧ t.decision = u.decision ∧ f = g := by
    simpa [seen] using h
  have hq : t.quiet = u.quiet := by simp [Trace.quiet, hl, hd]
  subst hf
  cases f with
  | none => exact h
  | some f =>
    simp only [conclude]
    split
    · rw [seen_perform, hq, ← seen_perform]
    · exact h

/-! ## The working form of a review -/

/-- **What a review does before it uses any provenance.** -/
def openingDeeds (sources : Sources) : List Deed :=
  attempted sources.lint fun r =>
    [.write (.log, summary r), .write (.log, r.toJson.write Json.compact),
      .enter (.totals r.totals)]

/-- **The files whose findings are judged**: those of the report, unless its totals settle it. -/
def judgedFiles (s : Settings) (sources : Sources) : Table String (List Finding) :=
  match sources.lint.result with
  | .ok r => if (r.totals.notice? s.strict).isSome then [] else r.files
  | .error _ => []

section Forms

variable {s : Settings} {sources : Sources} {r : Report} {e : String × List Finding}
  {p : Provenance} {f : Fault}

/-- With a report, a plan goes on with the report. -/
theorem plan_of_ok (h : sources.lint.result = .ok r) :
    plan s sources = sources.lint.calls.map Deed.start ++ reportDeeds s sources r :=
  attempted_of_ok h (reportDeeds s sources)

/-- With a report, a review writes two lines about it and looks at its totals. -/
theorem openingDeeds_of_ok (h : sources.lint.result = .ok r) :
    openingDeeds sources
      = sources.lint.calls.map Deed.start ++
          [.write (.log, summary r), .write (.log, r.toJson.write Json.compact),
            .enter (.totals r.totals)] :=
  attempted_of_ok h _

/-- Without a report, no file is judged. -/
theorem judgedFiles_of_error (h : sources.lint.result = .error f) :
    judgedFiles s sources = [] := by
  rw [judgedFiles, h]

/-- Where the totals settle the review, no file is judged. -/
theorem judgedFiles_of_notice {n : Notice} (h : sources.lint.result = .ok r)
    (hn : r.totals.notice? s.strict = some n) : judgedFiles s sources = [] := by
  simp [judgedFiles, h, hn]

/-- Where they do not, all files of the report are. -/
theorem judgedFiles_of_none (h : sources.lint.result = .ok r)
    (hn : r.totals.notice? s.strict = none) : judgedFiles s sources = r.files := by
  simp [judgedFiles, h, hn]

/-- A file is gone through before those behind it. -/
theorem filesDeeds_cons_of_ok (h : (sources.blame e.1).result = .ok p)
    (files : Table String (List Finding)) :
    filesDeeds s sources (e :: files)
      = (sources.blame e.1).calls.map Deed.start ++ fileDeeds s e.1 e.2 p
          ++ filesDeeds s sources files :=
  congrArg (· ++ filesDeeds s sources files)
    (attempted_of_ok (Attempt.result_passedOn_eq_ok_iff.2 h) (fileDeeds s e.1 e.2))

/-- **A file whose provenance is refused** ends in the fault as an iteration passes it on. -/
theorem filesDeeds_cons_of_error (h : (sources.blame e.1).result = .error f)
    (files : Table String (List Finding)) :
    filesDeeds s sources (e :: files)
      = (sources.blame e.1).calls.map Deed.start ++ [.stop f.passedOn]
          ++ filesDeeds s sources files :=
  congrArg (· ++ filesDeeds s sources files)
    (attempted_of_error (Attempt.result_passedOn_eq_error_iff.2 ⟨f, h, rfl⟩) (fileDeeds s e.1 e.2))

end Forms

/-- Without their commands, the files are gone through as if their provenances were at hand. -/
theorem filter_filesDeeds (s : Settings) (sources : Sources)
    (files : Table String (List Finding)) :
    (filesDeeds s sources files).filter (fun d => !d.isStart)
      = (filesDeeds s sources.fetched files).filter fun d => !d.isStart := by
  unfold filesDeeds
  rw [List.filter_flatMap, List.filter_flatMap]
  refine congrArg (List.flatMap · files) (funext fun e => ?_)
  have hstarts : ∀ cs : List Call, (cs.map Deed.start).filter (fun d => !d.isStart) = [] := by
    intro cs
    simp
  simp only [attempted, Sources.fetched, Attempt.passedOn_silent, Attempt.calls_silent,
    Attempt.result_silent, List.filter_append, hstarts, List.map_nil, List.filter_nil]

/-- Without their commands, provenances asked for ahead make no difference to the files. -/
theorem filter_provenanceDeeds (s : Settings) (sources : Sources) (r : Report) :
    (provenanceDeeds s sources r).filter (fun d => !d.isStart)
      = (filesDeeds s sources.fetched r.files).filter fun d => !d.isStart := by
  unfold provenanceDeeds
  split
  · simp [List.filter_flatMap]
  · exact filter_filesDeeds s sources r.files

/-- Without its commands, every plan opens the review and then goes through the files. -/
theorem filter_plan (s : Settings) (sources : Sources) :
    (plan s sources).filter (fun d => !d.isStart)
      = (openingDeeds sources
          ++ filesDeeds s sources.fetched (judgedFiles s sources)).filter fun d => !d.isStart := by
  unfold plan openingDeeds judgedFiles attempted
  cases sources.lint.result with
  | error f => simp [filesDeeds]
  | ok r =>
    simp only [reportDeeds, List.append_assoc, List.filter_append]
    refine congrArg _ ?_
    by_cases hn : (r.totals.notice? s.strict).isSome = true
    · simp [hn, filesDeeds]
    · simp [hn, filter_provenanceDeeds]

/-- **The working form of a review**: what is seen of it is what its opening and the judged files
come to, one file after the other, with every provenance at hand. -/
theorem seen_run (s : Settings) (sources : Sources) (sinks : Sinks) :
    seen (run s sources sinks)
      = seen (conclude sinks s.strict (perform sinks s.strict {}
          (openingDeeds sources ++ filesDeeds s sources.fetched (judgedFiles s sources)))) := by
  refine seen_conclude ?_
  rw [seen_perform, filter_plan, ← seen_perform]

end Review

end LintGate
