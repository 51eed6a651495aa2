import LintGate.Proofs.Linter
import LintGate.Proofs.Program.Agreement
import LintGate.Proofs.Report.Contents
import LintGate.Proofs.Review.Commands
import LintGate.Proofs.Settings

/-!
# The protocol of the commands that a run starts

A run has three kinds of errands: it asks for the changed files, it has files linted, and it asks
for the provenance of a file. With one job the commands it starts are those of its errands, one
after the other, and `calls_follow_protocol` says which errands there are and when. It covers every
way in which a run can end: settings that cannot be made, a list of files that fails or is empty, a
linter that fails, totals that settle the review, and a provenance that is refused.

An errand that fails is the last one, with one exception. The status of a linter that a signal ended
is negative, and the linter is taken to have failed only when its status is too high. If such a
linter has printed a report all the same, the run goes on with it (`LeftBehind`). The theorem tells
exactly when a command is started behind a failed errand, and `calls_behind_killed_linter` is a run
in which that happens.
-/

namespace LintGate

namespace Program

/-! ## Errands -/

/-- **An errand of a run.** -/
inductive Errand
  /-- The files that the change touches are listed. -/
  | changes
  /-- Some files are linted. -/
  | lint (files : List String)
  /-- The provenance of a file is asked for. -/
  | blame (file : String)
  deriving DecidableEq

namespace Errand

/-- **The command of an errand.** Provenance is asked for from the base revision on. -/
def command (s : Settings) : Errand → List String
  | changes => Changes.command s.base
  | lint files => Linter.command s.linter s.lintOptions files
  | blame file => Blame.command s.range file

/-- **An errand run** in the root directory. -/
def attempt (h : Host) (s : Settings) (e : Errand) : Attempt Finished :=
  h.runner (e.command s) (some s.root)

/-- The commands that an errand starts. -/
def calls (h : Host) (s : Settings) (e : Errand) : List Call := (e.attempt h s).calls

/-- The statuses of commands that did not fail. A linter with findings ends with one or two. -/
def successes : Errand → List Int
  | lint _ => [0, 1, 2]
  | _ => [0]

/-- **An errand has failed**: its command could not be run, ended with a status that tells of a
failure, or gave a report that cannot be read. -/
inductive Failed (h : Host) (s : Settings) : Errand → Prop
  | launch {e : Errand} {f : Fault} (attempted : (e.attempt h s).result = .error f) : Failed h s e
  | status {e : Errand} {f : Finished} (finished : (e.attempt h s).result = .ok f)
      (status : f.status ∉ e.successes) : Failed h s e
  | report {files : List String} {f : Finished}
      (finished : ((lint files).attempt h s).result = .ok f) (unreadable : f.report? = none) :
      Failed h s (lint files)

/-- **The linter gives a report**: it finished with one, and its status was not too high. -/
def Reports (h : Host) (s : Settings) (files : List String) (r : Report) : Prop :=
  ∃ f, ((lint files).attempt h s).result = .ok f ∧ f.status ≤ Linter.highestStatus ∧
    f.report? = some r

/-- **A killed linter leaves a report behind**: a signal ended it, so its status is negative. -/
def LeftBehind (h : Host) (s : Settings) (files : List String) (r : Report) : Prop :=
  ∃ f, ((lint files).attempt h s).result = .ok f ∧ f.status < 0 ∧ f.report? = some r

variable {h : Host} {s : Settings} {files : List String} {r : Report}

/-- **An errand starts one command**, or none when the executable is not found. -/
theorem calls_eq (h : Host) (s : Settings) (e : Errand) :
    e.calls h s = [] ∨
      ∃ found, e.calls h s = [⟨found :: (e.command s).tail, some s.root⟩] := by
  unfold calls attempt Host.runner Host.attempt
  cases e.command s with
  | nil => exact .inl rfl
  | cons executable arguments =>
    cases hl : h.locate (some s.root) executable with
    | error f => exact .inl (by simp [hl])
    | ok found => exact .inr ⟨found, by simp [hl]⟩

/-- Provenance is asked for exactly when the version control system is found. -/
theorem calls_blame_eq_nil_iff {file : String} :
    (blame file).calls h s = [] ↔ ∀ found, h.locate (some s.root) "git" ≠ .ok found := by
  unfold calls attempt Host.runner Host.attempt command Blame.command
  cases hl : h.locate (some s.root) "git" <;> simp [hl]

/-- A report that the linter gives names every file once. -/
theorem Reports.nodup (hr : Reports h s files r) : r.names.Nodup := by
  obtain ⟨f, -, -, hreport⟩ := hr
  obtain ⟨document, -, hparse⟩ := Option.bind_eq_some_iff.mp hreport
  refine Report.nodup_names_of_parse (s := document) ?_
  cases hd : Report.parse document with
  | ok r' => simpa [hd, Except.toOption] using hparse
  | error why => simp [hd, Except.toOption] at hparse

/-- **A report comes from a linter that did not fail**, or was killed. -/
theorem Reports.not_failed_or (hr : Reports h s files r) :
    ¬ (lint files).Failed h s ∨ LeftBehind h s files r := by
  obtain ⟨f, hf, hstatus, hreport⟩ := hr
  by_cases hneg : f.status < 0
  · exact .inr ⟨f, hf, hneg, hreport⟩
  · refine .inl ?_
    rintro (@⟨e, g, hg⟩ | @⟨e, g, hg, hfailed⟩ | @⟨files, g, hg, hnone⟩)
    · simp [hf] at hg
    · obtain rfl : f = g := by simpa [hf] using hg
      have hsuccess : f.status = 0 ∨ f.status = 1 ∨ f.status = 2 := by
        unfold Linter.highestStatus at hstatus
        omega
      exact hfailed (by simpa [successes] using hsuccess)
    · obtain rfl : f = g := by simpa [hf] using hg
      simp [hreport] at hnone

/-- A killed linter that leaves a report behind has failed, and gives the report. -/
theorem LeftBehind.failed_and_reports (hr : LeftBehind h s files r) :
    (lint files).Failed h s ∧ Reports h s files r := by
  obtain ⟨f, hf, hneg, hreport⟩ := hr
  refine ⟨.status hf ?_, f, hf, ?_, hreport⟩
  · simp only [successes, List.mem_cons, List.not_mem_nil, or_false]
    omega
  · unfold Linter.highestStatus
    omega

/-- An errand that ended with a status of success has not failed, unless it is the linter's. -/
theorem not_failed_of_status {e : Errand} {f : Finished} (hf : (e.attempt h s).result = .ok f)
    (hs : f.status ∈ e.successes) (he : ∀ files, e ≠ lint files) : ¬ e.Failed h s := by
  rintro (@⟨e, g, hg⟩ | @⟨e, g, hg, hstatus⟩ | @⟨files, g, hg, hreport⟩)
  · simp [hf] at hg
  · obtain rfl : f = g := by simpa [hf] using hg
    exact hstatus hs
  · exact he files rfl

end Errand

/-! ## The errands of the sources -/

variable {h : Host} {i : Invocation} {s : Settings} {files : List String} {r : Report}

/-- The commands of the linter are those of its errand. -/
theorem calls_lint (hfiles : files ≠ []) :
    (Sources.ofRunner h.runner s files).lint.calls = (Errand.lint files).calls h s := by
  cases files with
  | nil => exact absurd rfl hfiles
  | cons file files => exact Attempt.calls_bind_ofResult

/-- The linter's source gives a report exactly when its errand does. -/
theorem result_lint_eq_ok_iff (hfiles : files ≠ []) :
    (Sources.ofRunner h.runner s files).lint.result = .ok r ↔ Errand.Reports h s files r := by
  cases files with
  | nil => exact absurd rfl hfiles
  | cons file files =>
    refine Attempt.result_bind_ofResult_eq_ok_iff.trans ?_
    simp only [Linter.reportOf_eq_ok_iff]
    rfl

/-- The commands that ask for the provenance of some files are those of the errands. -/
theorem blameCalls_eq (names : List String) :
    Review.blameCalls (Sources.ofRunner h.runner s files) names
      = (names.map Errand.blame).flatMap (Errand.calls h s) := by
  rw [Review.blameCalls, List.flatMap_map]
  exact List.flatMap_congr fun name _ => Attempt.calls_bind_ofResult

/-- A provenance that is had comes from an errand that did not fail. -/
theorem not_failed_blame {name : String} {p : Provenance}
    (hp : ((Sources.ofRunner h.runner s files).blame name).result = .ok p) :
    ¬ (Errand.blame name).Failed h s := by
  obtain ⟨f, hf, hread⟩ := Attempt.result_bind_ofResult_eq_ok_iff.mp hp
  refine Errand.not_failed_of_status hf ?_ nofun
  by_cases hs : f.status = 0
  · simp [Errand.successes, hs]
  · simp [Blame.provenanceOf, hs] at hread

/-! ## The beginning of a run -/

/-- The errand that lists the changed files, where no files are given. -/
def changesAsked (i : Invocation) : List Errand := if i.files = [] then [.changes] else []

/-- The files to lint are asked for by that errand or not at all. -/
theorem calls_targets : (targets h i s).calls = (changesAsked i).flatMap (Errand.calls h s) := by
  unfold targets changesAsked
  split
  · exact Attempt.calls_bind_ofResult.trans (List.append_nil _).symm
  · rfl

/-- Files to lint that were listed come from an errand that did not fail. -/
theorem not_failed_changes (hi : i.files = []) (ht : (targets h i s).result = .ok files) :
    ¬ Errand.changes.Failed h s := by
  rw [targets, if_pos hi] at ht
  obtain ⟨f, hf, hread⟩ := Attempt.result_bind_ofResult_eq_ok_iff.mp ht
  refine Errand.not_failed_of_status (Attempt.result_passedOn_eq_ok_iff.1 hf) ?_ nofun
  by_cases hs : f.status = 0
  · simp [Errand.successes, hs]
  · simp [Changes.namesOf, hs, Except.map] at hread

/-- Without settings a run does not begin. -/
theorem begin_of_load_error {f : Fault} (hl : Settings.load h i.inputs = .error f) :
    begin h i = ⟨[], .error f⟩ := by
  have hload : (Attempt.ofResult (Settings.load h i.inputs)).result = .error f := hl
  exact Attempt.bind_of_error hload _

/-- With settings, a run begins with the files to lint. -/
theorem begin_of_load (hl : Settings.load h i.inputs = .ok s) :
    begin h i = ⟨(targets h i s).calls, (targets h i s).result.map (Assignment.mk s)⟩ := by
  have hload : (Attempt.ofResult (Settings.load h i.inputs)).result = .ok s := hl
  refine (Attempt.bind_of_ok hload _).trans ?_
  cases ht : (targets h i s).result with
  | error f =>
    rw [Attempt.bind_of_error ht]
    rfl
  | ok files =>
    rw [Attempt.bind_of_ok ht]
    simp only [Attempt.ofResult, List.nil_append]
    exact congrArg (Attempt.mk · _) (List.append_nil _)

/-! ## The commands of a run -/

theorem calls_left (said : List Utterance) (calls : List Call) (f : Fault) :
    (left said calls f).calls = calls := by
  unfold left
  split <;> rfl

theorem calls_notBegun (calls : List Call) (f : Fault) : (notBegun calls f).calls = calls := by
  unfold notBegun
  split
  · rfl
  · exact calls_left [] calls f

/-- A review adds its commands, however it ends. -/
theorem calls_begun {calls : List Call} {a : Assignment} (ha : a.files ≠ []) :
    (begun h calls a).calls = calls ++ (review h a).1.calls := by
  rw [begun, if_neg ha]
  obtain ⟨t, _ | f⟩ := review h a
  · rfl
  · exact calls_left _ _ f

/-- Without settings nothing is started. -/
theorem calls_run_of_load_error {f : Fault} (hl : Settings.load h i.inputs = .error f) :
    (run h i).calls = [] := by
  rw [run, begin_of_load_error hl]
  exact calls_notBegun [] f

/-- **A run that reviews nothing** has at most asked for the files to lint. -/
theorem calls_run_of_no_files (hl : Settings.load h i.inputs = .ok s)
    (ht : ∀ files, (targets h i s).result = .ok files → files = []) :
    (run h i).calls = (changesAsked i).flatMap (Errand.calls h s) := by
  rw [run, begin_of_load hl, ← calls_targets]
  cases hr : (targets h i s).result with
  | error f => exact calls_notBegun _ f
  | ok files =>
    obtain rfl := ht files hr
    rfl

/-- The files whose provenance a run asks for. -/
def blamedNames (h : Host) (s : Settings) (files : List String) : List String :=
  Review.askedFiles (.ofRunner h.runner s files)
    (Review.judgedFiles s (.ofRunner h.runner s files)).keys

/-- **The errands of a run**, in order. -/
def errands (changes linted : List Errand) (names : List String) : List Errand :=
  changes ++ linted ++ names.map .blame

/-- **A run that reviews some files** has asked for the files to lint, for the linter's report, and
for provenance. -/
theorem calls_run_of_files (hl : Settings.load h i.inputs = .ok s)
    (ht : (targets h i s).result = .ok files) (hfiles : files ≠ []) (hjobs : s.jobs ≤ 1) :
    (run h i).calls
      = (errands (changesAsked i) [.lint files] (blamedNames h s files)).flatMap
          (Errand.calls h s) := by
  have hreview : (review h ⟨s, files⟩).1.calls
      = (Errand.lint files).calls h s
          ++ ((blamedNames h s files).map Errand.blame).flatMap (Errand.calls h s) := by
    rw [review, Review.calls_run hjobs, calls_lint hfiles, blameCalls_eq]
    rfl
  rw [run, begin_of_load hl, ht]
  show (begun h _ ⟨s, files⟩).calls = _
  rw [calls_begun hfiles, hreview, calls_targets]
  simp [errands, List.flatMap_append]

/-- Provenance is asked for only once the linter has given a report that its totals do not
settle. -/
theorem blamedNames_cases (h : Host) (s : Settings) (hfiles : files ≠ []) :
    blamedNames h s files = [] ∨
      ∃ r, Errand.Reports h s files r ∧ r.totals.notice? s.strict = none ∧
        blamedNames h s files = Review.askedFiles (.ofRunner h.runner s files) r.names := by
  unfold blamedNames Review.judgedFiles
  cases hr : (Sources.ofRunner h.runner s files).lint.result with
  | error f => exact .inl rfl
  | ok r =>
    dsimp only
    cases hn : r.totals.notice? s.strict with
    | some n => exact .inl rfl
    | none => exact .inr ⟨r, (result_lint_eq_ok_iff hfiles).mp hr, hn, rfl⟩

/-! ## The protocol -/

/-- **The protocol of a run**: which errands it has, and when. -/
structure Protocol (h : Host) (i : Invocation) (s : Settings) (changes linted : List Errand)
    (names : List String) : Prop where
  /-- The changed files are listed at most once, and only when no files are given. -/
  lists : changes = [] ∨ changes = [.changes] ∧ i.files = []
  /-- The linter is run at most once, and only on files to lint, of which there are some. -/
  lints : linted = [] ∨
    ∃ files, linted = [.lint files] ∧ files ≠ [] ∧ (targets h i s).result = .ok files
  /-- Provenance is asked for only behind a linter's report that its totals do not settle. The files
  are the first ones of the report, in its order, and each is asked about once. -/
  asks : names = [] ∨
    ∃ files r, linted = [.lint files] ∧ Errand.Reports h s files r ∧
      r.totals.notice? s.strict = none ∧ names <+: r.names ∧ names.Nodup
  /-- Every errand starts at most one command, in the root directory. -/
  started : ∀ e ∈ errands changes linted names,
    e.calls h s = [] ∨
      ∃ found, e.calls h s = [⟨found :: (e.command s).tail, some s.root⟩]
  /-- An errand that others follow has not failed, unless it is a killed linter that left its report
  behind. -/
  goesOn : (errands changes linted names).Pairwise fun e _ =>
    e.Failed h s → ∃ files r, e = .lint files ∧ Errand.LeftBehind h s files r

/-- **Nothing is started behind an errand that has failed.** -/
def Halts (h : Host) (s : Settings) (asked : List Errand) : Prop :=
  asked.Pairwise fun e later => e.Failed h s → later.calls h s = []

/-- **A command is started behind a killed linter**: it left a report behind that its totals do not
settle and that names files, and the version control system is found. -/
def Overlooked (h : Host) (s : Settings) (files : List String) : Prop :=
  ∃ r, Errand.LeftBehind h s files r ∧ r.totals.notice? s.strict = none ∧ r.names ≠ [] ∧
    ∃ found, h.locate (some s.root) "git" = .ok found

/-- A relation between the errands of a run holds when it holds for what can follow what. -/
theorem pairwise_errands {R : Errand → Errand → Prop} {names : List String}
    (hchanges : i.files = [] → ∀ e, R .changes e)
    (hlint : ∀ name ∈ names, R (.lint files) (.blame name))
    (hblame : names.Pairwise fun a b => R (.blame a) (.blame b)) :
    (errands (changesAsked i) [.lint files] names).Pairwise R := by
  have hrest : (.lint files :: names.map Errand.blame).Pairwise R := by
    refine .cons ?_ (List.pairwise_map.mpr hblame)
    intro e he
    obtain ⟨name, hname, rfl⟩ := List.mem_map.mp he
    exact hlint name hname
  rw [errands, List.append_assoc, List.singleton_append]
  unfold changesAsked
  split
  · next hi => exact .cons (fun e _ => hchanges hi e) hrest
  · exact hrest

/-- The errand for the files to lint is one. -/
theorem pairwise_changesAsked {R : Errand → Errand → Prop} :
    (errands (changesAsked i) [] []).Pairwise R := by
  unfold changesAsked errands
  split
  · exact List.pairwise_singleton _ _
  · exact .nil

theorem changesAsked_cases (i : Invocation) :
    changesAsked i = [] ∨ changesAsked i = [.changes] ∧ i.files = [] := by
  unfold changesAsked
  split
  · next hi => exact .inr ⟨rfl, hi⟩
  · exact .inl rfl

/-- A run that reviews nothing follows the protocol. -/
theorem protocol_of_no_files (h : Host) (i : Invocation) (s : Settings) :
    Protocol h i s (changesAsked i) [] [] where
  lists := changesAsked_cases i
  lints := .inl rfl
  asks := .inl rfl
  started e _ := Errand.calls_eq h s e
  goesOn := pairwise_changesAsked

/-- **A run that reviews some files follows the protocol.** -/
theorem protocol_of_files (ht : (targets h i s).result = .ok files) (hfiles : files ≠ []) :
    Protocol h i s (changesAsked i) [.lint files] (blamedNames h s files) where
  lists := changesAsked_cases i
  lints := .inr ⟨files, rfl, hfiles, ht⟩
  asks := by
    rcases blamedNames_cases h s hfiles with hnone | ⟨r, hr, hn, hnames⟩
    · exact .inl hnone
    · have hprefix : blamedNames h s files <+: r.names := by
        rw [hnames]
        exact Review.askedFiles_isPrefix _ _
      exact .inr ⟨files, r, rfl, hr, hn, hprefix, hr.nodup.sublist hprefix.sublist⟩
  started e _ := Errand.calls_eq h s e
  goesOn := by
    refine pairwise_errands ?_ ?_ ?_
    · intro hi _ hfailed
      exact absurd hfailed (not_failed_changes hi ht)
    · intro name hname hfailed
      rcases blamedNames_cases h s hfiles with hnone | ⟨r, hr, -, -⟩
      · simp [hnone] at hname
      · exact ⟨files, r, rfl, hr.not_failed_or.resolve_left (not_not_intro hfailed)⟩
    · refine (Review.pairwise_askedFiles _ _).imp ?_
      rintro a b ⟨p, hp⟩ hfailed
      exact absurd hfailed (not_failed_blame hp)

/-- **A run that reviews some files halts at the first failure**, unless it overlooks a killed
linter. -/
theorem halts_iff (ht : (targets h i s).result = .ok files) (hfiles : files ≠ []) :
    Halts h s (errands (changesAsked i) [.lint files] (blamedNames h s files))
      ↔ ¬ Overlooked h s files := by
  constructor
  · rintro hhalts ⟨r, hr, hn, hnames, found, hfound⟩
    -- the provenance of the first file is asked for right behind the killed linter
    have hlint := (result_lint_eq_ok_iff hfiles).mpr hr.failed_and_reports.2
    obtain ⟨first, rest, hfirst⟩ := List.exists_cons_of_ne_nil hnames
    have hmem : first ∈ blamedNames h s files := by
      unfold blamedNames Review.judgedFiles
      rw [hlint]
      dsimp only
      rw [hn, if_neg (by simp)]
      show first ∈ Review.askedFiles _ r.names
      rw [hfirst, Review.askedFiles]
      exact List.mem_cons_self
    have hpair := (List.pairwise_append.mp hhalts).2.2 (.lint files) (by simp) (.blame first)
      (List.mem_map_of_mem hmem) hr.failed_and_reports.1
    exact Errand.calls_blame_eq_nil_iff.mp hpair found hfound
  · intro hnot
    refine pairwise_errands ?_ ?_ ?_
    · intro hi _ hfailed
      exact absurd hfailed (not_failed_changes hi ht)
    · intro name hname hfailed
      rw [Errand.calls_blame_eq_nil_iff]
      intro found hfound
      rcases blamedNames_cases h s hfiles with hnone | ⟨r, hr, hn, hnames⟩
      · simp [hnone] at hname
      · have hnames : r.names ≠ [] := by
          intro hempty
          rw [hnames, hempty] at hname
          cases hname
        exact hnot ⟨r, hr.not_failed_or.resolve_left (not_not_intro hfailed), hn, hnames,
          found, hfound⟩
    · refine (Review.pairwise_askedFiles _ _).imp ?_
      rintro a b ⟨p, hp⟩ hfailed
      exact absurd hfailed (not_failed_blame hp)

/-- **The commands of a run follow one protocol**, with one job and on any host. Nothing is started
when the settings cannot be made. Otherwise the commands are those of the run's errands, one after
the other: the files that the change touches, the linter on the files to lint, and the provenance of
the files of its report, each of them only as the protocol has it. Nothing is started behind an
errand that has failed, unless that is a linter that was killed, had printed a report all the same,
and is overlooked. -/
theorem calls_follow_protocol (h : Host) (i : Invocation)
    (hjobs : Settings.jobCount i.inputs.jobs = .ok 1) :
    (∀ f, Settings.load h i.inputs = .error f → (run h i).calls = []) ∧
    ∀ s, Settings.load h i.inputs = .ok s →
      ∃ changes linted names,
        (run h i).calls = (errands changes linted names).flatMap (Errand.calls h s) ∧
        Protocol h i s changes linted names ∧
        (Halts h s (errands changes linted names) ↔
          ∀ files, .lint files ∈ linted → ¬ Overlooked h s files) := by
  refine ⟨fun f hl => calls_run_of_load_error hl, ?_⟩
  intro s hl
  have hone : s.jobs = 1 := by
    have hload := Settings.jobCount_of_load hl
    rw [hjobs] at hload
    exact (Except.ok.inj hload).symm
  by_cases hfiles : ∃ files, (targets h i s).result = .ok files ∧ files ≠ []
  · obtain ⟨files, ht, hfiles⟩ := hfiles
    have hcalls := calls_run_of_files hl ht hfiles (Nat.le_of_eq hone)
    refine ⟨_, _, _, hcalls, protocol_of_files ht hfiles, ?_⟩
    simp [halts_iff ht hfiles]
  · have hnone : ∀ files, (targets h i s).result = .ok files → files = [] := by
      intro files ht
      by_contra hne
      exact hfiles ⟨files, ht, hne⟩
    refine ⟨changesAsked i, [], [], ?_, protocol_of_no_files h i s, ?_⟩
    · rw [calls_run_of_no_files hl hnone, errands, List.append_nil, List.map_nil, List.append_nil]
    · exact iff_of_true pairwise_changesAsked (by simp)

/-- A report on one file, as it is printed. -/
def printedReport : String :=
  "\x7b\"totals\":\x7b\"errors\":1\x7d,\"files\":\x7b\"a.php\":\x7b\"messages\":[\x7b"
    ++ "\"message\":\"bad\",\"type\":\"ERROR\",\"line\":1,\"column\":1\x7d]\x7d\x7d\x7d"

/-- A host with a linter that prints the report and ends with some status, on which a change touches
one file, and every provenance is refused. -/
def hostWith (status : Int) : Host where
  files := [("/a.php", .bytes [])]
  executables := [("phpcs", "/bin/phpcs"), ("git", "/bin/git")]
  answer
    | "/bin/git" :: "diff" :: _ => .finished 0 "a.php\n".toUTF8.toList []
    | "/bin/git" :: _ => .finished 128 [] []
    | _ => .finished status printedReport.toUTF8.toList []

/-- A change whose files are asked for. -/
def oneChange : Invocation := { oneFile with files := [] }

/-- The changed files are listed, linted, and one is asked about. -/
theorem calls_follow_protocol_refused :
    Settings.jobCount oneChange.inputs.jobs = .ok 1 ∧
      Settings.load (hostWith 2) oneChange.inputs = .ok oneFileSettings ∧
      ∃ changes linted names,
        (run (hostWith 2) oneChange).calls
            = (errands changes linted names).flatMap (Errand.calls (hostWith 2) oneFileSettings) ∧
          Protocol (hostWith 2) oneChange oneFileSettings changes linted names ∧
          (run (hostWith 2) oneChange).calls.map (·.command) =
            [["/bin/git", "diff", "--name-only", "--diff-filter=AM", "abc", "HEAD", "--"],
              ["/bin/phpcs", "--report=json", "a.php"],
              ["/bin/git", "blame", "--line-porcelain", "abc..", "--", "a.php"]] := by
  have hjobs : Settings.jobCount oneChange.inputs.jobs = .ok 1 := by decide +kernel
  have hload : Settings.load (hostWith 2) oneChange.inputs = .ok oneFileSettings := by
    decide +kernel
  obtain ⟨changes, linted, names, hcalls, hprotocol, -⟩ :=
    (calls_follow_protocol (hostWith 2) oneChange hjobs).2 _ hload
  exact ⟨hjobs, hload, changes, linted, names, hcalls, hprotocol, by decide +kernel⟩

/-- **The linter is killed and provenance is asked for all the same.** -/
theorem calls_behind_killed_linter :
    Settings.load (hostWith (-9)) oneFile.inputs = .ok oneFileSettings ∧
      (Errand.lint ["a.php"]).Failed (hostWith (-9)) oneFileSettings ∧
      (run (hostWith (-9)) oneFile).calls =
        [⟨["/bin/phpcs", "--report=json", "a.php"], some .root⟩,
          ⟨["/bin/git", "blame", "--line-porcelain", "abc..", "--", "a.php"], some .root⟩] := by
  have hresult : ((Errand.lint ["a.php"]).attempt (hostWith (-9)) oneFileSettings).result
      = .ok ⟨-9, some printedReport, some ""⟩ := by decide +kernel
  exact ⟨by decide +kernel, .status hresult (by decide), by decide +kernel⟩

end Program

end LintGate
