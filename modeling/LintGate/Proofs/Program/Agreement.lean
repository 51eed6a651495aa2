import LintGate.Program
import LintGate.Proofs.Linter
import LintGate.Proofs.Review.Verdict

/-!
# What a run of the program says, and how it exits

Three things tell how a run went: the errors it said, its last status line, and its exit status.
They take different ways. An error is said the moment a reason comes up, by the channel for reasons;
the status lines are said at the end and look at the decision; the exit status looks at the outcome.
And a run can end in three places, for a fault can keep it from beginning, and there may be nothing
to lint. `run_agrees` says that the three agree wherever a run ends, as long as no command is
interrupted and a fault at the beginning is one of the kinds that the program announces.

What a review contributes is that its trace is coherent (`Review.coherent_run`). What is left are
the faults and the commands of the host: a tool's fault is no interruption unless the host reports
one (`isRecorded_of_runner`), and only asking for provenance looks like it (`Call.AsksProvenance`).
-/

namespace LintGate

/-! ## Faults of tools -/

/-- **A host that is not interrupted** while it runs a command. -/
def Host.Uninterrupted (h : Host) : Prop :=
  ∀ command r, h.answer command = .reported r → r.kind ≠ .interrupt

namespace Host

variable {h : Host}

/-- A command that is not interrupted does not end in an interruption. -/
theorem Uninterrupted.attempt (hh : h.Uninterrupted) {options : Options} {command : List String}
    {f : CommandFault} (hf : (h.attempt options command).2 = .error f) : f.kind ≠ .interrupt := by
  cases command with
  | nil =>
    cases hf
    decide
  | cons executable arguments =>
    rw [Host.attempt] at hf
    cases hl : h.locate options.folder executable with
    | error g =>
      obtain rfl : g = f := by simpa [hl] using hf
      rw [kind_of_locate hl]
      decide
    | ok found =>
      simp only [hl] at hf
      split at hf
      next r hr =>
        cases hf
        exact hh _ r hr
      next =>
        obtain ⟨g, rfl⟩ := exists_of_finished hf
        simp [CommandFault.kind]

/-- **A tool that is not interrupted** ends in no interruption. -/
theorem Uninterrupted.runner (hh : h.Uninterrupted) {command : List String} {folder : Option Path}
    {f : Fault} (hf : (h.runner command folder).result = .error f) : f.isRecorded = true := by
  obtain ⟨g, ha, rfl⟩ := exists_of_mapError_eq_error hf
  have hg := hh.attempt ha
  unfold toolFault
  split
  · rfl
  · simpa [Fault.isRecorded, Fault.kind] using hg

/-- A command keeps its arguments when its executable is found. -/
theorem tail_of_mem_calls {command : List String} {folder : Option Path} {c : Call}
    (hc : c ∈ (h.runner command folder).calls) : c.command.tail = command.tail := by
  cases command with
  | nil => cases hc
  | cons executable arguments =>
    simp only [Host.runner, Host.attempt] at hc
    split at hc
    · cases hc
    · rw [List.mem_singleton.mp hc]
      rfl

end Host

/-! ## Faults of the sources -/

/-- A linter that is not interrupted fails in a way that a review records. -/
theorem Linter.isRecorded_of_lint {h : Host} (hh : h.Uninterrupted) {folder : Option Path}
    {linter : Path} {options : Table String String} {files : List String} {f : Fault}
    (hf : (lint h.runner folder linter options files).result = .error f) :
    f.isRecorded = true := by
  cases files with
  | nil => cases hf
  | cons file files =>
    rcases Attempt.error_of_bind hf with hrun | ⟨finished, -, hreport⟩
    · exact hh.runner hrun
    · have htaken := taken_reportOf (command linter options (file :: files)) finished
      rw [show reportOf _ finished = .error f from hreport] at htaken
      rcases htaken.tool_or_tooDeep with ⟨t, rfl⟩ | ⟨-, b, rfl⟩
      · rfl
      · rfl

/-- A provenance that is asked for without an interruption is refused in a way that a review
records. -/
theorem Blame.isRecorded_of_blame {h : Host} (hh : h.Uninterrupted) {folder : Option Path}
    {range file : String} {f : Fault}
    (hf : (blame h.runner folder range file).result = .error f) : f.isRecorded = true := by
  rcases Attempt.error_of_bind hf with hrun | ⟨finished, -, hprovenance⟩
  · exact hh.runner hrun
  · simp only [Attempt.ofResult, provenanceOf] at hprovenance
    split at hprovenance
    · obtain ⟨count, -, rfl⟩ := exists_of_mapError_eq_error hprovenance
      rfl
    · cases hprovenance
      rfl

/-! ## Commands that ask for provenance -/

/-- **A command that asks for the provenance of a file**, whichever executable it was found to
mean. -/
def Call.AsksProvenance (c : Call) : Prop :=
  ∃ range file, c.command.tail = (Blame.command range file).tail

/-- The linter's command does not ask for provenance. -/
theorem Linter.not_asksProvenance {h : Host} {folder : Option Path} {linter : Path}
    {options : Table String String} {files : List String} {c : Call}
    (hc : c ∈ (lint h.runner folder linter options files).calls) : ¬ c.AsksProvenance := by
  unfold lint at hc
  split at hc
  · cases hc
  · rintro ⟨range, file, hblame⟩
    rcases Attempt.mem_calls_of_bind hc with hrun | ⟨finished, hreport⟩
    · rw [Host.tail_of_mem_calls hrun] at hblame
      exact absurd (List.cons.inj hblame).1 (by decide)
    · cases hreport

namespace Program

/-- The beginning of a run does not ask for provenance. -/
theorem begin_not_asksProvenance {h : Host} {i : Invocation} {c : Call}
    (hc : c ∈ (begin h i).calls) : ¬ c.AsksProvenance := by
  rintro ⟨range, file, hblame⟩
  unfold begin at hc
  rcases Attempt.mem_calls_of_bind hc with hload | ⟨settings, hrest⟩
  · cases hload
  · rcases Attempt.mem_calls_of_bind hrest with htargets | ⟨files, hpure⟩
    · unfold targets at htargets
      split at htargets
      · rcases Attempt.mem_calls_of_bind htargets with hrun | ⟨finished, hnames⟩
        · rw [Attempt.calls_passedOn] at hrun
          rw [Host.tail_of_mem_calls hrun] at hblame
          exact absurd (List.cons.inj hblame).1 (by decide)
        · cases hnames
      · cases htargets
    · cases hpure

/-! ## What is said -/

/-- The error that an utterance says. -/
def errorOf? : Utterance → Option String
  | .error message => some message
  | _ => none

/-- The status line that an utterance is. -/
def statusOf? : Utterance → Option (Tone × String)
  | .status tone message => some (tone, message)
  | _ => none

/-- **The errors that are said**, in their order. -/
def errors (said : List Utterance) : List String := said.filterMap errorOf?

/-- **The status lines that are said**, in their order. -/
def statuses (said : List Utterance) : List (Tone × String) := said.filterMap statusOf?

@[simp] theorem errors_append (us vs : List Utterance) :
    errors (us ++ vs) = errors us ++ errors vs := List.filterMap_append

@[simp] theorem statuses_append (us vs : List Utterance) :
    statuses (us ++ vs) = statuses us ++ statuses vs := List.filterMap_append

/-- **The errors said for the lines of a review** are the reasons among them. -/
theorem errors_ofWritten (ls : List Written) :
    errors (ls.map .ofWritten) = Review.reasonsIn ls := by
  induction ls with
  | nil => rfl
  | cons w ls ih =>
    obtain ⟨channel, text⟩ := w
    simp only [errors, Review.reasonsIn, List.map_cons, List.filterMap_cons] at ih ⊢
    cases channel <;> simp [Utterance.ofWritten, errorOf?, ih]

/-- The lines of a review are no status lines. -/
theorem statuses_ofWritten (ls : List Written) : statuses (ls.map .ofWritten) = [] := by
  rw [statuses, List.filterMap_map, List.filterMap_eq_nil_iff]
  rintro ⟨channel, text⟩ -
  cases channel <;> rfl

/-- The closing words say no error. -/
theorem errors_closing (d : Decision) : errors (closing d) = [] := by
  cases hn : d.notice <;> cases hf : d.outcome.failed <;>
    simp [errors, closing, errorOf?, hn, hf]

/-- **The status lines of the closing words**: the notice, if there is one, and the verdict. -/
theorem statuses_closing (d : Decision) :
    statuses (closing d)
      = (d.notice.map fun n => (Tone.info, n.text)).toList ++
          [if d.outcome.failed then (.fail, failedLine d.outcome)
            else (.ok, "No phpcs problems on changed lines")] := by
  cases hn : d.notice <;> cases hf : d.outcome.failed <;>
    simp [statuses, closing, statusOf?, hn, hf]

/-! ## The three ends of a run -/

variable {h : Host} {i : Invocation} {a : Assignment} {f : Fault}

/-- A run that a fault keeps from beginning announces the fault. -/
theorem run_of_begin_error (hb : (begin h i).result = .error f) (hf : f.isAnnounced = true) :
    run h i
      = { exit := failure
          said := [.debug Review.faultLog, .error f.text, .status .fail f.text]
          calls := (begin h i).calls } := by
  simp [run, hb, notBegun, hf]

/-- A run without files has nothing to do. -/
theorem run_of_no_files (hb : (begin h i).result = .ok a) (ha : a.files = []) :
    run h i
      = { exit := 0
          said := [.status .ok "No files to lint"]
          calls := (begin h i).calls } := by
  simp [run, hb, begun, ha]

/-- **A review on a host that is not interrupted** leaves no fault. -/
theorem review_eq (hh : h.Uninterrupted) (a : Assignment) :
    review h a = ((review h a).1, none) :=
  Review.run_eq_of_recorded (fun _ hf => Linter.isRecorded_of_lint hh hf)
    fun _ _ hf => Blame.isRecorded_of_blame hh hf

/-- A run with files reviews them, and closes with words on the decision. -/
theorem run_of_files (hh : h.Uninterrupted) (hb : (begin h i).result = .ok a)
    (ha : a.files ≠ []) :
    run h i
      = { exit := exitOf (review h a).1.decision.outcome
          said := (review h a).1.lines.map .ofWritten ++ closing (review h a).1.decision
          calls := (begin h i).calls ++ (review h a).1.calls } := by
  simp only [run, hb, begun, if_neg ha]
  rw [review_eq hh a]

/-! ## Agreement -/

/-- A failed outcome is what makes the exit status one. -/
theorem exitOf_eq_one_iff {o : Outcome} : exitOf o = 1 ↔ o.failed = true := by
  cases ho : o.failed <;> simp [exitOf, failure, ho]

/-- **Errors, status lines and exit status agree.** On a host that is not interrupted, a run whose
beginning ends well or in a fault that the program announces leaves no fault. It exits with zero or
one, and with one exactly if an error was said. Its last status line tells of a failure exactly
then. The errors said are the text of the fault that kept the run from beginning, nothing when there
is nothing to lint, and otherwise the reasons of the review's outcome, of which a failed run's last
line gives the number. The notice is said exactly if the review was short-circuited; then the
program exits with zero, and no command has asked for provenance. -/
theorem run_agrees (h : Host) (i : Invocation) (hh : h.Uninterrupted)
    (hbegin : ∀ f, (begin h i).result = .error f → f.isAnnounced = true) :
    (run h i).fault = none ∧
    ((run h i).exit = 0 ∨ (run h i).exit = 1) ∧
    ((run h i).exit = 1 ↔ errors (run h i).said ≠ []) ∧
    (∃ last, (statuses (run h i).said).getLast? = some last ∧
      (last.1 = .fail ↔ (run h i).exit = 1)) ∧
    (∀ f, (begin h i).result = .error f →
      errors (run h i).said = [f.text] ∧ ∀ m, (.info, m) ∉ statuses (run h i).said) ∧
    (∀ a, (begin h i).result = .ok a → a.files = [] →
      errors (run h i).said = [] ∧ ∀ m, (.info, m) ∉ statuses (run h i).said) ∧
    (∀ a, (begin h i).result = .ok a → a.files ≠ [] →
      ∃ t, review h a = (t, none) ∧
        errors (run h i).said = t.decision.outcome.reasons ∧
        ((run h i).exit = 1 ↔ t.decision.outcome.failed = true) ∧
        ((run h i).exit = 1 →
          (statuses (run h i).said).getLast?
            = some (.fail, "phpcs found " ++ toString t.decision.outcome.reasons.length ++
                " problem(s) on changed lines")) ∧
        ((∃ n : Notice, (.info, n.text) ∈ statuses (run h i).said)
          ↔ t.decision.outcome.shortCircuited = true) ∧
        (t.decision.outcome.shortCircuited = true →
          (run h i).exit = 0 ∧ ∀ c ∈ (run h i).calls, ¬ c.AsksProvenance)) := by
  cases hb : (begin h i).result with
  | error f =>
    rw [run_of_begin_error hb (hbegin f hb)]
    refine ⟨rfl, .inr rfl, by simp [errors, errorOf?, failure],
      ⟨(.fail, f.text), rfl, by simp [failure]⟩, ?_, nofun, nofun⟩
    rintro g ⟨⟩
    exact ⟨rfl, by simp [statuses, statusOf?]⟩
  | ok a =>
    by_cases ha : a.files = []
    · rw [run_of_no_files hb ha]
      refine ⟨rfl, .inl rfl, by simp [errors, errorOf?],
        ⟨(.ok, "No files to lint"), rfl, by simp⟩, nofun, ?_, ?_⟩
      · rintro b ⟨⟩ -
        exact ⟨rfl, by simp [statuses, statusOf?]⟩
      · rintro b ⟨⟩ hfiles
        exact absurd ha hfiles
    · have hc : Review.Coherent (review h a).1 := Review.coherent_run _ _
      have hrun := run_of_files hh hb ha
      have hcalls : (run h i).calls = (begin h i).calls ++ (review h a).1.calls := by rw [hrun]
      have hexit : (run h i).exit = 1 ↔ (review h a).1.decision.outcome.failed = true := by
        rw [hrun, exitOf_eq_one_iff]
      have hexits : (run h i).exit = 0 ∨ (run h i).exit = 1 := by
        rw [hrun]
        cases hf : (review h a).1.decision.outcome.failed <;> simp [exitOf, failure, hf]
      have herrors : errors (run h i).said = (review h a).1.decision.outcome.reasons := by
        rw [hrun, errors_append, errors_ofWritten, errors_closing, List.append_nil, hc.reasons]
      have hstatuses : statuses (run h i).said = statuses (closing (review h a).1.decision) := by
        rw [hrun, statuses_append, statuses_ofWritten, List.nil_append]
      rw [statuses_closing] at hstatuses
      refine ⟨by rw [hrun], hexits, ?_, ?_, nofun, ?_, ?_⟩
      · rw [hexit, herrors, hc.failed]
      · rw [hstatuses, List.getLast?_concat, hexit]
        cases hf : (review h a).1.decision.outcome.failed <;> simp
      · rintro b ⟨⟩ hfiles
        exact absurd hfiles ha
      · rintro b ⟨⟩ -
        refine ⟨_, review_eq hh a, herrors, hexit, ?_, ?_, ?_⟩
        · intro hone
          rw [hstatuses, List.getLast?_concat, hexit.mp hone]
          rfl
        · rw [hstatuses, hc.shortCircuited]
          cases hn : (review h a).1.decision.notice with
          | none =>
            cases hf : (review h a).1.decision.outcome.failed <;> simp
          | some n => simpa using ⟨n, .inl rfl⟩
        · intro hshort
          obtain ⟨hlint, hfailed⟩ := Review.calls_run_of_shortCircuited hshort
          have hfailed : (review h a).1.decision.outcome.failed = false := hfailed
          refine ⟨?_, ?_⟩
          · refine hexits.resolve_right ?_
            rw [hexit, hfailed]
            exact Bool.false_ne_true
          · intro c hmem
            rw [hcalls, List.mem_append] at hmem
            rcases hmem with hmem | hmem
            · exact begin_not_asksProvenance hmem
            · rw [review, hlint] at hmem
              exact Linter.not_asksProvenance hmem

/-- A host on which the linter fails. -/
def failingHost : Host where
  executables := [("phpcs", "/bin/phpcs")]
  answer _ := .finished 3 [] []

/-- One file to lint. -/
def oneFile : Invocation where
  inputs := { linter := some "phpcs", base := some "abc", root := some .root }
  files := ["a.php"]

/-- The settings that this makes. -/
def oneFileSettings : Settings where
  linter := .ofString "phpcs"
  standard := none
  strict := true
  base := "abc"
  jobs := 1
  root := .root

/-- A run whose linter fails says so once, and exits with one. -/
theorem run_agrees_failing :
    failingHost.Uninterrupted ∧
      (∀ f, (begin failingHost oneFile).result = .error f → f.isAnnounced = true) ∧
      (run failingHost oneFile).exit = 1 ∧
      errors (run failingHost oneFile).said = ["phpcs failed with status 3"] ∧
      (statuses (run failingHost oneFile).said).getLast?
        = some (.fail, "phpcs found 1 problem(s) on changed lines") := by
  have hh : failingHost.Uninterrupted := by
    intro command r hr
    cases hr
  obtain ⟨a, ha, hfiles⟩ :
      ∃ a, (begin failingHost oneFile).result = .ok a ∧ a.files ≠ [] := by
    cases hb : (begin failingHost oneFile).result with
    | error f =>
      have hok : (begin failingHost oneFile).result.isOk = true := by decide +kernel
      simp [hb, Except.isOk, Except.toBool] at hok
    | ok a =>
      have hbegin : (begin failingHost oneFile).result.toOption.map (·.files) = some ["a.php"] := by
        decide +kernel
      simp only [hb, Except.toOption, Option.map_some, Option.some.injEq] at hbegin
      exact ⟨a, rfl, by simp [hbegin]⟩
  have hannounced : ∀ f, (begin failingHost oneFile).result = .error f → f.isAnnounced = true := by
    simp [ha]
  have herrors : errors (run failingHost oneFile).said = ["phpcs failed with status 3"] := by
    decide +kernel
  obtain ⟨-, -, hexit, -, -, -, hreview⟩ := run_agrees failingHost oneFile hh hannounced
  obtain ⟨t, -, hreasons, -, hlast, -⟩ := hreview a ha hfiles
  have hone : (run failingHost oneFile).exit = 1 := by simp [hexit, herrors]
  refine ⟨hh, hannounced, hone, herrors, (hlast hone).trans ?_⟩
  rw [← hreasons, herrors]
  decide

end Program

end LintGate
