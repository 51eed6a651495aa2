import LintGate.Proofs.Review.Faults

/-!
# Sinks that refuse a line

A sink may refuse any line it is offered. While the plan is being done that is like any other fault:
it ends the plan, and the review goes on to record it. But recording a fault takes sinks as well.
Its place is logged and its reason announced, and there is nobody left to record a fault that comes
up in doing so: it leaves the review, which gives no outcome then.

`withstands_iff` draws the line. A review in which some line was refused ends as a failed one, with
the fault that ended its plan among its reasons, exactly when both calls that record the fault are
answered. When the log refuses, the fault is lost; when the announcement is refused, its reason has
been entered, but nobody is given the outcome it stands in.

What sinks do while a fault is recorded is a second parameter, `late`, for a sink that has refused
one line may well take the next. When it does not, a review never withstands the loss of its log or
of its announcements (`run_ne_none_of_refused`).
-/

namespace LintGate.Review

/-! ## Calls of the sinks -/

/-- **A call of a sink**: the line that it is offered, and the fault with which it refuses the line,
if it does. -/
abbrev SinkCall := Written × Option Fault

/-- **The calls that deeds make of the sinks**, up to the first fault. -/
def sinkCalls (sinks : Sinks) (strict : Bool) : Trace → List Deed → List SinkCall
  | _, [] => []
  | t, d :: ds =>
    (d.lines strict).map (fun w => (w, sinks w.1 (t.taken w.1))) ++
      match d.perform sinks strict t with
      | (u, none) => sinkCalls sinks strict u ds
      | (_, some _) => []

/-- The calls that a single deed makes. -/
theorem sinkCalls_singleton (sinks : Sinks) (strict : Bool) (t : Trace) (d : Deed) :
    sinkCalls sinks strict t [d]
      = (d.lines strict).map fun w => (w, sinks w.1 (t.taken w.1)) := by
  rw [sinkCalls]
  rcases d.perform sinks strict t with ⟨u, _ | f⟩ <;> exact List.append_nil _

/-- A refused line ends its deed with the fault of the sink, which has taken no more lines since. -/
theorem Deed.perform_of_refused {sinks : Sinks} {strict : Bool} {t : Trace} {d : Deed}
    {w : Written} {f : Fault} (hw : w ∈ d.lines strict)
    (hf : sinks w.1 (t.taken w.1) = some f) :
    ∃ u, d.perform sinks strict t = (u, some f) ∧ u.lines = t.lines := by
  cases d with
  | start c => cases hw
  | write v =>
    obtain rfl := List.mem_singleton.mp hw
    exact ⟨t, by simp [Deed.perform, Trace.offer, hf], rfl⟩
  | enter e =>
    obtain ⟨reason, hreason, rfl⟩ : ∃ reason, e.reason? strict = some reason ∧
        (.failure, reason) = w := by simpa [Deed.lines] using hw
    refine ⟨{ t with decision := t.decision.enter strict e }, ?_, rfl⟩
    have hf' : sinks .failure
        (Trace.taken { t with decision := t.decision.enter strict e } .failure) = some f := hf
    simp [Deed.perform, hreason, Trace.offer, hf']
  | stop g => cases hw

/-- **A refused line ends the deeds** with the fault of the sink, which has taken no more lines
since. -/
theorem perform_of_refused {sinks : Sinks} {strict : Bool} {t : Trace} {ds : List Deed}
    {w : Written} {f : Fault} (h : (w, some f) ∈ sinkCalls sinks strict t ds) :
    ∃ u, perform sinks strict t ds = (u, some f) ∧ sinks w.1 (u.taken w.1) = some f := by
  induction ds generalizing t with
  | nil => cases h
  | cons d ds ih =>
    rcases List.mem_append.mp h with hd | hds
    · obtain ⟨v, hv, heq⟩ := List.mem_map.mp hd
      obtain ⟨rfl, hf⟩ := Prod.mk.inj heq
      obtain ⟨u, hu, hlines⟩ := Deed.perform_of_refused hv hf
      refine ⟨u, by rw [perform, hu], ?_⟩
      rwa [Trace.taken, hlines]
    · cases hp : d.perform sinks strict t with
      | mk u g =>
        rw [hp] at hds
        cases g with
        | some g => cases hds
        | none =>
          obtain ⟨v, hv, hlast⟩ := ih hds
          exact ⟨v, by rw [perform, hp]; exact hv, hlast⟩

/-! ## Reviews whose sinks refuse lines -/

section Review

variable (s : Settings) (sources : Sources) (sinks late : Sinks)

/-- **A review whose sinks do otherwise while a fault is recorded.** -/
def runWith : Trace × Option Fault :=
  conclude late s.strict (perform sinks s.strict {} (plan s sources))

/-- The calls of the sinks while the plan is done. -/
def planCalls : List SinkCall := sinkCalls sinks s.strict {} (plan s sources)

/-- The calls of the sinks while a fault is recorded. -/
def recordingCalls : List SinkCall :=
  match perform sinks s.strict {} (plan s sources) with
  | (t, some f) => if f.isRecorded then sinkCalls late s.strict t (faultDeeds f) else []
  | (_, none) => []

/-- **A review withstands** the faults that come up: it gives an outcome, which is that of a failed
run, and the fault that ended its plan is the last of the reasons. -/
structure Withstands : Prop where
  /-- No fault leaves the review. -/
  returns : (runWith s sources sinks late).2 = none
  /-- The run has failed. -/
  failed : (runWith s sources sinks late).1.decision.outcome.failed = true
  /-- The fault that ended the plan is a reason for it. -/
  recorded : ∀ t f, perform sinks s.strict {} (plan s sources) = (t, some f) →
    (runWith s sources sinks late).1.decision.outcome.reasons
      = t.decision.outcome.reasons ++ [f.reason]

end Review

variable {s : Settings} {sources : Sources} {sinks late : Sinks}

/-- Sinks that do the same all along. -/
theorem runWith_self : runWith s sources sinks sinks = run s sources sinks := rfl

/-- What the log takes does not count for the announcements. -/
theorem taken_failure_of_log (t : Trace) (line : String) (d : Decision) :
    Trace.taken { t with lines := t.lines ++ [(.log, line)], decision := d } .failure
      = t.taken .failure := by
  simp [Trace.taken]

/-- **A fault is recorded when the log takes its line and the announcement is taken.** Otherwise the
first refusal leaves the review, and what was entered until then stays. -/
theorem conclude_of_recorded {strict : Bool} {t : Trace} {f : Fault} (hf : f.isRecorded = true) :
    (conclude late strict (t, some f)).2
        = (late .log (t.taken .log)).or (late .failure (t.taken .failure)) ∧
      (conclude late strict (t, some f)).1.decision
        = if (late .log (t.taken .log)).isNone then t.decision.fail f.reason else t.decision := by
  rw [conclude, if_pos hf]
  cases hlog : late .log (t.taken .log) with
  | some g => simp [faultDeeds, perform, Deed.perform, Trace.offer, hlog]
  | none =>
    have htaken := taken_failure_of_log t faultLog
    cases hfailure : late .failure (t.taken .failure) <;>
      simp [faultDeeds, perform, Deed.perform, Trace.offer, hlog, Entry.reason?, Decision.enter,
        htaken, hfailure]

/-- **Recording a fault calls the log**, and the announcement once the log has taken its line. -/
theorem sinkCalls_faultDeeds (late : Sinks) (strict : Bool) (t : Trace) (f : Fault) :
    sinkCalls late strict t (faultDeeds f)
      = ((.log, faultLog), late .log (t.taken .log)) ::
        if (late .log (t.taken .log)).isNone then
          [((.failure, f.reason), late .failure (t.taken .failure))]
        else [] := by
  rw [faultDeeds, sinkCalls]
  cases hlog : late .log (t.taken .log) with
  | some g => simp [Deed.lines, Deed.perform, Trace.offer, hlog]
  | none =>
    have htaken := taken_failure_of_log t faultLog
    simp [Deed.lines, Deed.perform, Trace.offer, hlog, Entry.reason?, htaken, sinkCalls_singleton]

/-- The calls that record a fault. -/
theorem recordingCalls_of_recorded {t : Trace} {f : Fault}
    (hplan : perform sinks s.strict {} (plan s sources) = (t, some f)) (hf : f.isRecorded = true) :
    recordingCalls s sources sinks late = sinkCalls late s.strict t (faultDeeds f) := by
  rw [recordingCalls, hplan]
  exact if_pos hf

/-- **A refusal while a fault is recorded leaves the review.** The fault that was being recorded is
among the reasons if it was the announcement that was refused, and it is lost with the log. -/
theorem runWith_of_refused {t : Trace} {f : Fault}
    (hplan : perform sinks s.strict {} (plan s sources) = (t, some f)) (hf : f.isRecorded = true)
    {w : Written} {g : Fault} (hg : (w, some g) ∈ recordingCalls s sources sinks late) :
    (runWith s sources sinks late).2 = some g ∧
      (runWith s sources sinks late).1.decision
        = if w.1 = .failure then t.decision.fail f.reason else t.decision := by
  obtain ⟨hreturns, hdecision⟩ := @conclude_of_recorded late s.strict t f hf
  rw [recordingCalls_of_recorded hplan hf, sinkCalls_faultDeeds] at hg
  rw [runWith, hplan, hreturns, hdecision]
  cases hlog : late .log (t.taken .log) with
  | some h =>
    obtain ⟨rfl, rfl⟩ : w = (.log, faultLog) ∧ g = h := by simpa [hlog] using hg
    simp
  | none =>
    obtain ⟨rfl, hfailure⟩ : w = (.failure, f.reason) ∧
        some g = late .failure (t.taken .failure) := by simpa [hlog] using hg
    simp [← hfailure]

/-- **What withstands is settled by the calls that record a fault.** -/
theorem withstands_iff_of_recorded {t : Trace} {f : Fault}
    (hplan : perform sinks s.strict {} (plan s sources) = (t, some f)) (hf : f.isRecorded = true) :
    Withstands s sources sinks late ↔
      ∀ c ∈ recordingCalls s sources sinks late, c.2 = none := by
  obtain ⟨hreturns, hdecision⟩ := @conclude_of_recorded late s.strict t f hf
  constructor
  · rintro ⟨h, -, -⟩ ⟨w, g⟩ hc
    cases g with
    | none => rfl
    | some g =>
      rw [(runWith_of_refused hplan hf hc).1] at h
      cases h
  · intro h
    rw [recordingCalls_of_recorded hplan hf, sinkCalls_faultDeeds] at h
    have hlog : late .log (t.taken .log) = none := h _ List.mem_cons_self
    have hfailure : late .failure (t.taken .failure) = none := by
      refine h ((.failure, f.reason), late .failure (t.taken .failure)) ?_
      simp [hlog]
    rw [hlog, hfailure] at hreturns
    rw [hlog] at hdecision
    refine ⟨?_, ?_, ?_⟩
    · rw [runWith, hplan, hreturns]
      rfl
    · rw [runWith, hplan, hdecision]
      rfl
    · intro u e hu
      obtain ⟨rfl, rfl⟩ : t = u ∧ f = e := by simpa [hplan] using hu
      rw [runWith, hplan, hdecision]
      rfl

/-- **A review in which a line is refused ends as a failed one exactly when recording its fault
calls no sink that refuses.** -/
theorem withstands_iff (hraised : ∀ c n f, sinks c n = some f → f.isRecorded = true)
    (hrefused : ∃ c ∈ planCalls s sources sinks ++ recordingCalls s sources sinks late,
      c.2 ≠ none) :
    (Withstands s sources sinks late ↔
      ∀ c ∈ recordingCalls s sources sinks late, c.2 = none) ∧
    ∀ w g, (w, some g) ∈ recordingCalls s sources sinks late →
      (runWith s sources sinks late).2 = some g ∧
        ∃ t f, perform sinks s.strict {} (plan s sources) = (t, some f) ∧
          (runWith s sources sinks late).1.decision
            = if w.1 = .failure then t.decision.fail f.reason else t.decision := by
  -- whichever call was refused, the plan ended in a fault, and one that is recorded
  obtain ⟨t, f, hplan, hf⟩ : ∃ t f,
      perform sinks s.strict {} (plan s sources) = (t, some f) ∧ f.isRecorded = true := by
    obtain ⟨⟨w, g⟩, hmem, hg⟩ := hrefused
    obtain ⟨g, rfl⟩ := Option.ne_none_iff_exists'.mp hg
    rcases List.mem_append.mp hmem with hmem | hmem
    · obtain ⟨t, hplan, hanswer⟩ := perform_of_refused hmem
      exact ⟨t, g, hplan, hraised _ _ _ hanswer⟩
    · unfold recordingCalls at hmem
      split at hmem
      next t f hplan =>
        split at hmem
        next hf => exact ⟨t, f, hplan, hf⟩
        next => cases hmem
      next => cases hmem
  refine ⟨withstands_iff_of_recorded hplan hf, fun w g hg => ?_⟩
  obtain ⟨hleft, hdecision⟩ := runWith_of_refused hplan hf hg
  exact ⟨hleft, t, f, hplan, hdecision⟩

/-- **A sink that keeps refusing** is not withstood when it takes the log or the announcements. -/
theorem run_ne_none_of_refused (hraised : ∀ c n f, sinks c n = some f → f.isRecorded = true)
    {w : Written} {f : Fault} (h : (w, some f) ∈ planCalls s sources sinks)
    (hw : w.1 ≠ .primary) : (run s sources sinks).2 ≠ none := by
  obtain ⟨t, hplan, hanswer⟩ := perform_of_refused h
  have hf := hraised _ _ _ hanswer
  rw [run, hplan, (conclude_of_recorded hf).1]
  obtain ⟨channel, text⟩ := w
  cases channel with
  | primary => exact absurd rfl hw
  | log => simp [hanswer]
  | failure => cases hlog : sinks .log (t.taken .log) <;> simp [hanswer]

/-- The fault of a sink that is closed. -/
def closed : Fault := .reported ⟨.runtime, some "sink closed"⟩

/-- Sinks of which one channel is closed. -/
def closing (channel : Channel) : Sinks := fun c _ => if c = channel then some closed else none

/-- Sources that answer everything. -/
def answering : Sources where
  lint := .done threeFiles
  blame _ := .done []

/-- The annotations are closed: the fault of their sink is recorded, as the only reason. -/
theorem withstands_iff_primary :
    (∀ c n f, closing .primary c n = some f → f.isRecorded = true) ∧
      (∃ c ∈ planCalls oneJob answering (closing .primary) ++
        recordingCalls oneJob answering (closing .primary) (closing .primary), c.2 ≠ none) ∧
      Withstands oneJob answering (closing .primary) (closing .primary) ∧
      (run oneJob answering (closing .primary)).1.decision.outcome.reasons = ["sink closed"] := by
  have hraised : ∀ c n f, closing .primary c n = some f → f.isRecorded = true := by
    intro c n f h
    obtain ⟨-, rfl⟩ : c = .primary ∧ closed = f := by simpa [closing] using h
    decide
  have hrefused : ∃ c ∈ planCalls oneJob answering (closing .primary) ++
      recordingCalls oneJob answering (closing .primary) (closing .primary), c.2 ≠ none :=
    ⟨((.primary, "<file name=\"a.php\">"), some closed), by decide, by decide⟩
  have hanswered : ∀ c ∈ recordingCalls oneJob answering (closing .primary) (closing .primary),
      c.2 = none := by decide
  exact ⟨hraised, hrefused, (withstands_iff hraised hrefused).1.mpr hanswered, by rfl⟩

/-- **The log is closed**: its fault leaves the review, and is not recorded. -/
theorem closed_log_lost :
    (∃ c ∈ planCalls oneJob answering (closing .log), c.2 = some closed) ∧
      closed.isRecorded = true ∧
      run oneJob answering (closing .log) = ({}, some closed) ∧
      ¬ Withstands oneJob answering (closing .log) (closing .log) := by
  have hrun : run oneJob answering (closing .log) = ({}, some closed) := by rfl
  refine ⟨⟨((.log, summary threeFiles), some closed), by decide, rfl⟩, by decide, hrun, ?_⟩
  intro h
  have hreturns := h.returns
  rw [runWith_self, hrun] at hreturns
  cases hreturns

end LintGate.Review
