import LintGate.Proofs.Review.Pool
import LintGate.Proofs.Review.Answers

/-!
# Reviews that a fault ends

A fault ends a review at once, and what was done before it stays. `run_aborts` says what that is.
When the linter fails, nothing was done. When the provenance of a file is refused, the files before
it have been gone through and count as if they had been all there were, and the file itself and
those behind it leave no mark. In either case the review ends as one that failed, with one more
reason than the files before gave: the text of the fault, or the name of its kind.

Provenances come out of an iteration, and that is where the two cases differ. The linter's fault is
recorded as it is; the fault of a provenance is recorded as the iteration passes it on, so that one
of the kind that ends iterations loses its reason (`overrun_loses_reason`). No other does
(`reason_passedOn_eq_iff`).

The fault is met wherever the review has got to, in the middle of a list of deeds that depends on
what every other file brings. It is therefore the list that is cut first (`plan_of_refusal`), into
the deeds up to the fault and those that are never done; the deeds up to the fault are those of a
review of the files before.
-/

namespace LintGate

/-- **Sources of which one fails** while files are gone through: the linter gives a report, the
provenances of the files `before` are had, and that of the next file is refused. -/
structure Sources.Refuse (sources : Sources) (r : Report) (maps : String → Provenance)
    (before : Table String (List Finding)) (e : String × List Finding)
    (behind : Table String (List Finding)) (f : Fault) : Prop where
  /-- The linter gives the report. -/
  lint : sources.lint.result = .ok r
  /-- The files of the report. -/
  files : r.files = before ++ e :: behind
  /-- The provenance of every file before is had. -/
  blame : ∀ b ∈ before, (sources.blame b.1).result = .ok (maps b.1)
  /-- The provenance of the file is refused. -/
  refused : (sources.blame e.1).result = .error f

/-- The provenances that sources give, as far as they give any. -/
def Sources.maps (sources : Sources) (file : String) : Provenance :=
  match (sources.blame file).result with
  | .ok p => p
  | .error _ => []

theorem Sources.maps_of_ok {sources : Sources} {file : String} {p : Provenance}
    (h : (sources.blame file).result = .ok p) : sources.maps file = p := by
  rw [maps, h]

/-- **Sources answer or one of them refuses**, once the linter has given a report. -/
theorem Sources.answer_or_refuse (sources : Sources) {r : Report}
    (h : sources.lint.result = .ok r) :
    sources.Answer r sources.maps ∨
      ∃ before e behind f, sources.Refuse r sources.maps before e behind f := by
  have hhad : ∀ file, (∃ p, (sources.blame file).result = .ok p) →
      (sources.blame file).result = .ok (sources.maps file) := by
    rintro file ⟨p, hp⟩
    rw [hp, maps_of_ok hp]
  -- the refusal that ends the review is the first one
  have hsplit : ∀ files : Table String (List Finding),
      (∀ e ∈ files, (sources.blame e.1).result = .ok (sources.maps e.1)) ∨
        ∃ before e behind f, files = before ++ e :: behind ∧
          (∀ b ∈ before, (sources.blame b.1).result = .ok (sources.maps b.1)) ∧
          (sources.blame e.1).result = .error f := by
    intro files
    induction files with
    | nil => exact .inl (by simp)
    | cons e files ih =>
      cases he : (sources.blame e.1).result with
      | error f => exact .inr ⟨[], e, files, f, rfl, by simp, he⟩
      | ok p =>
        have he := hhad e.1 ⟨p, he⟩
        rcases ih with hall | ⟨before, g, behind, f, rfl, hbefore, hg⟩
        · exact .inl (List.forall_mem_cons.mpr ⟨he, hall⟩)
        · exact .inr ⟨e :: before, g, behind, f, rfl, List.forall_mem_cons.mpr ⟨he, hbefore⟩, hg⟩
  rcases hsplit r.files with hall | ⟨before, e, behind, f, hfiles, hbefore, he⟩
  · exact .inl ⟨h, hall⟩
  · exact .inr ⟨before, e, behind, f, h, hfiles, hbefore, he⟩

/-- The sources with a linter that reports on some files only. -/
def Sources.reporting (sources : Sources) (r : Report) (files : Table String (List Finding)) :
    Sources :=
  { sources with lint := .done { r with files } }

/-- The sources with a linter that reports on the files before the refusal answer. -/
theorem Sources.Refuse.answer {sources : Sources} {r : Report} {maps : String → Provenance}
    {before behind : Table String (List Finding)} {e : String × List Finding} {f : Fault}
    (h : sources.Refuse r maps before e behind f) :
    (sources.reporting r before).Answer { r with files := before } maps :=
  ⟨rfl, h.blame⟩

/-- **A fault keeps its reason in an iteration**, unless it says that an iteration is over. -/
def Fault.KeepsReason (f : Fault) : Prop := f.kind.isExhausted = true → f.reason = overrun

/-- The reason of a fault that an iteration passes on. -/
theorem Fault.reason_passedOn (f : Fault) :
    f.passedOn.reason = if f.kind.isExhausted then overrun else f.reason := by
  cases h : f.kind.isExhausted with
  | true =>
    rw [passedOn_of_isExhausted h]
    rfl
  | false =>
    rw [passedOn_of_not_isExhausted h]
    rfl

/-- **An iteration leaves a fault its reason** exactly if it keeps it. -/
theorem Fault.reason_passedOn_eq_iff {f : Fault} :
    f.passedOn.reason = f.reason ↔ f.KeepsReason := by
  rw [reason_passedOn, KeepsReason]
  cases f.kind.isExhausted with
  | true => simpa using eq_comm
  | false => simp

namespace Review

/-- **The ends that a review can come to** where every line is taken. With several jobs these are
the ends of its pool, in whatever order the workers go about the files. -/
inductive Ends (s : Settings) (sources : Sources) : Trace × Option Fault → Prop
  /-- The review is done deed by deed. -/
  | alone : Ends s sources (run s sources .open)
  /-- The review is done with a pool. -/
  | pooled {p : Pool} {f : Option Fault} (several : 1 < s.jobs)
      (reached : Pool.Reaches s sources .open p) (ended : p.stage = .ended f) :
      Ends s sources (p.trace, f)

variable {s : Settings} {sources : Sources} {r : Report} {maps : String → Provenance}
variable {before behind : Table String (List Finding)} {e : String × List Finding} {f : Fault}

/-- The ends of a review look alike. -/
theorem Ends.seen_eq {x : Trace × Option Fault} (h : Ends s sources x) :
    seen x = seen (run s sources .open) := by
  cases h with
  | alone => rfl
  | @pooled p f several reached ended =>
    have hout := (Pool.inv_of_reaches reached).2
    rw [Pool.outcome, ended] at hout
    exact (congrArg seen hout).trans (Pool.seen_outcome_start s sources .open s.jobs)

/-! ## Recording a fault -/

/-- **A fault is recorded** behind what was done before it: its place is logged, and its reason is
announced and decided on. -/
theorem seen_conclude_of_fault {strict : Bool} {x : Trace × Option Fault} {ls : List Written}
    {d : Decision} (hf : f.isRecorded = true) (h : seen x = (ls, d, some f)) :
    seen (conclude .open strict x)
      = (ls ++ [(.log, faultLog), (.failure, f.reason)], d.fail f.reason, none) := by
  obtain ⟨t, rfl, rfl, rfl⟩ := seen_eq_iff.mp h
  rw [conclude, if_pos hf]
  simp [seen, faultDeeds, perform, Deed.perform, Trace.offer_open, Entry.reason?, Decision.enter]

/-- A fault that is not recorded leaves a review as it was. -/
theorem seen_conclude_of_not_recorded {strict : Bool} {x : Trace × Option Fault}
    {ls : List Written} {d : Decision} (hf : ¬ f.isRecorded = true)
    (h : seen x = (ls, d, some f)) : seen (conclude .open strict x) = (ls, d, some f) := by
  obtain ⟨t, rfl, rfl, rfl⟩ := seen_eq_iff.mp h
  rw [conclude, if_neg hf]
  rfl

/-- A review whose linter fails has done nothing when the fault comes up. -/
theorem seen_perform_of_lint_error (h : sources.lint.result = .error f) :
    seen (perform .open s.strict {}
        (openingDeeds sources ++ filesDeeds s sources.fetched (judgedFiles s sources)))
      = ([], {}, some f) := by
  have hfilter : (openingDeeds sources).filter (fun d => !d.isStart) = [.stop f] := by
    simp [openingDeeds, attempted_of_error h]
  rw [judgedFiles_of_error h, filesDeeds, List.flatMap_nil, List.append_nil, seen_perform,
    hfilter]
  rfl

/-- A review whose linter fails records the fault and nothing else. -/
theorem seen_run_of_lint_error (hf : f.isRecorded = true) (h : sources.lint.result = .error f) :
    seen (run s sources .open)
      = ([(.log, faultLog), (.failure, f.reason)], Decision.fail {} f.reason, none) := by
  rw [seen_run, seen_conclude_of_fault hf (seen_perform_of_lint_error h)]
  rfl

/-! ## The plan up to a refusal -/

/-- The files of two tables are gone through one table after the other. -/
theorem filesDeeds_append (s : Settings) (sources : Sources)
    (files others : Table String (List Finding)) :
    filesDeeds s sources (files ++ others)
      = filesDeeds s sources files ++ filesDeeds s sources others :=
  List.flatMap_append

/-- What a review has done when a file's provenance is refused: the lines about the report, and the
files before. -/
theorem seen_perform_of_refusal (h : sources.Refuse r maps before e behind f)
    (hn : r.totals.notice? s.strict = none) :
    seen (perform .open s.strict {}
        (openingDeeds sources ++ filesDeeds s sources.fetched (judgedFiles s sources)))
      = (openingLines r ++ fileLines s maps before,
          Decision.enterAll s.strict {} (fileEntries s maps before), some f.passedOn) := by
  have hfiles : judgedFiles s sources = before ++ e :: behind :=
    (judgedFiles_of_none h.lint hn).trans h.files
  have hweigh : Decision.enter s.strict {} (.totals r.totals) = {} := by
    simp [Decision.enter, Decision.weigh, hn]
  have hopen := seen_openingDeeds s.strict h.lint
  rw [hweigh] at hopen
  have hrefused : (sources.fetched.blame e.1).result = .error f := h.refused
  obtain ⟨t, ht, hl, hd⟩ := seen_eq_iff.mp (seen_perform_append_of_answers h.blame hopen)
  rw [hfiles, filesDeeds_append, filesDeeds_cons_of_error hrefused, ← List.append_assoc,
    perform_append, ht, ← hl, ← hd]
  rfl

/-- **A review whose sources refuse a file's provenance**: the lines about the report, the files
before, and the fault. -/
theorem seen_run_of_refusal (h : sources.Refuse r maps before e behind f)
    (hn : r.totals.notice? s.strict = none) (hf : f.isRecorded = true) :
    seen (run s sources .open)
      = (openingLines r ++ fileLines s maps before
            ++ [(.log, faultLog), (.failure, f.passedOn.reason)],
          (Decision.enterAll s.strict {} (fileEntries s maps before)).fail f.passedOn.reason,
          none) := by
  rw [seen_run]
  exact seen_conclude_of_fault (f.isRecorded_passedOn.trans hf) (seen_perform_of_refusal h hn)

/-- **What is done up to the refusal** of a file's provenance, with one job. -/
def deedsUpTo (s : Settings) (sources : Sources) (r : Report)
    (before : Table String (List Finding)) (file : String) : List Deed :=
  sources.lint.calls.map Deed.start ++ (openingLines r).map Deed.write ++
    .enter (.totals r.totals) :: filesDeeds s sources before ++
      (sources.blame file).calls.map Deed.start

/-- **The plan is cut at the refusal**: behind it come deeds that are never done. -/
theorem plan_of_refusal (h : sources.Refuse r maps before e behind f)
    (hn : r.totals.notice? s.strict = none) (hjobs : s.jobs ≤ 1) :
    plan s sources
      = deedsUpTo s sources r before e.1 ++ .stop f.passedOn :: filesDeeds s sources behind := by
  have hahead : fetchesAhead s r = false := by
    simp [fetchesAhead, Nat.not_lt.mpr hjobs]
  have hdeeds : provenanceDeeds s sources r
      = filesDeeds s sources before ++ ((sources.blame e.1).calls.map Deed.start ++
          .stop f.passedOn :: filesDeeds s sources behind) := by
    rw [provenanceDeeds, hahead, if_neg Bool.false_ne_true, h.files, filesDeeds_append,
      filesDeeds_cons_of_error h.refused, List.append_assoc, List.singleton_append]
  rw [plan_of_ok h.lint]
  simp [reportDeeds, hn, hdeeds, deedsUpTo, openingLines]

/-- Files whose provenances are had are gone through without a fault, whenever they are asked
for. -/
theorem filesDeeds_of_had (h : ∀ b ∈ before, (sources.blame b.1).result = .ok (maps b.1)) :
    filesDeeds s sources before
      = before.flatMap fun b =>
          (sources.blame b.1).calls.map Deed.start ++ fileDeeds s b.1 b.2 (maps b.1) := by
  unfold filesDeeds
  refine List.flatMap_congr fun b hb => ?_
  exact attempted_of_ok (Attempt.result_passedOn_eq_ok_iff.2 (h b hb)) _

/-- No fault comes up in the findings of a file. -/
theorem stop_not_mem_fileDeeds (s : Settings) (file : String) (fs : List Finding) (p : Provenance)
    (g : Fault) : Deed.stop g ∉ fileDeeds s file fs p := by
  intro hg
  rcases mem_fileDeeds hg with ⟨w, hw, -⟩ | hb | ⟨j, -, hj⟩
  · cases hw
  · cases hb
  · cases hj

/-- No fault comes up before the refusal. -/
theorem stop_not_mem_deedsUpTo (h : sources.Refuse r maps before e behind f) (g : Fault) :
    Deed.stop g ∉ deedsUpTo s sources r before e.1 := by
  have hfiles : Deed.stop g ∉ filesDeeds s sources before := by
    rw [filesDeeds_of_had h.blame]
    simp [stop_not_mem_fileDeeds]
  simp [deedsUpTo, hfiles]

/-- **With one job, a review that meets a refusal** does the deeds up to it and records it. -/
theorem run_of_refusal (h : sources.Refuse r maps before e behind f)
    (hn : r.totals.notice? s.strict = none) (hjobs : s.jobs ≤ 1) :
    run s sources .open
      = conclude .open s.strict
          ((perform .open s.strict {} (deedsUpTo s sources r before e.1)).1,
            some f.passedOn) := by
  have hopen := perform_open s.strict {} (stop_not_mem_deedsUpTo (s := s) h)
  rw [run, plan_of_refusal h hn hjobs, perform_append, hopen]
  rfl

/-- The findings of a file start no command. -/
theorem filterMap_call?_fileDeeds (s : Settings) (file : String) (fs : List Finding)
    (p : Provenance) : (fileDeeds s file fs p).filterMap Deed.call? = [] := by
  rw [List.filterMap_eq_nil_iff]
  intro d hd
  rcases mem_fileDeeds hd with ⟨w, rfl, -⟩ | rfl | ⟨j, -, rfl⟩ <;> rfl

/-- The commands of files whose provenances are had are those that ask for them. -/
theorem calls_filesDeeds (h : ∀ b ∈ before, (sources.blame b.1).result = .ok (maps b.1)) :
    (filesDeeds s sources before).filterMap Deed.call?
      = before.flatMap fun b => (sources.blame b.1).calls := by
  rw [filesDeeds_of_had h, List.filterMap_flatMap]
  refine List.flatMap_congr fun b _ => ?_
  rw [List.filterMap_append, filterMap_call?_fileDeeds, List.append_nil]
  simp [List.filterMap_map, Function.comp_def, Deed.call?]

/-- Recording a fault starts no command. -/
theorem calls_conclude_open (strict : Bool) (t : Trace) (g : Fault) :
    (conclude .open strict (t, some g)).1.calls = t.calls := by
  unfold conclude
  dsimp only
  split <;> rfl

/-- **No provenance is asked for behind a refusal**, with one job: the commands are those of the
linter, of the files before, and of the file itself. -/
theorem calls_run_of_refusal (h : sources.Refuse r maps before e behind f)
    (hn : r.totals.notice? s.strict = none) (hjobs : s.jobs ≤ 1) :
    (run s sources .open).1.calls
      = sources.lint.calls ++ before.flatMap (fun b => (sources.blame b.1).calls)
          ++ (sources.blame e.1).calls := by
  rw [run_of_refusal h hn hjobs, calls_conclude_open,
    perform_open s.strict {} (stop_not_mem_deedsUpTo h)]
  simp [deedsUpTo, calls_filesDeeds h.blame, List.filterMap_map, Function.comp_def, Deed.call?,
    List.filterMap_cons]

/-- What is done up to the refusal depends on nothing but the sources asked until then. -/
theorem deedsUpTo_congr {other : Sources} (hl : other.lint = sources.lint)
    (hb : ∀ b ∈ before, other.blame b.1 = sources.blame b.1)
    (he : other.blame e.1 = sources.blame e.1) :
    deedsUpTo s other r before e.1 = deedsUpTo s sources r before e.1 := by
  have hfiles : filesDeeds s other before = filesDeeds s sources before := by
    unfold filesDeeds
    refine List.flatMap_congr fun b hmem => ?_
    dsimp only
    rw [hb b hmem]
  rw [deedsUpTo, hl, hfiles, he, deedsUpTo]

/-! ## What a fault leaves behind -/

/-- The lines about a report are logged. -/
@[simp] theorem announced_openingLines (r : Report) : announced (openingLines r) = [] := rfl

@[simp] theorem logged_openingLines (r : Report) : logged (openingLines r) = openingLines r := rfl

/-- What some files log. -/
theorem logged_fileLines (s : Settings) (maps : String → Provenance)
    (files : Table String (List Finding)) :
    logged (fileLines s maps files)
      = files.flatMap fun e => fileLog s e.1 e.2 (maps e.1) := by
  rw [fileLines, logged_flatMap]
  simp only [logged_fileDeeds]

/-- One job. -/
def oneJob : Settings where
  linter := .ofString "phpcs"
  standard := none
  strict := true
  base := "abc"
  jobs := 1
  root := .root

/-- A fault without a text. -/
def wordless : Fault := .reported ⟨.other "Refused" (by decide), none⟩

/-- The finding that each file has. -/
def finding (file : String) : Finding := ⟨file, 1, 1, .error, "bad", "Generic.Bad"⟩

/-- A report on three files with one finding each. -/
def threeFiles : Report where
  totals := { errors := 3 }
  files := [("a.php", [finding "a.php"]), ("b.php", [finding "b.php"]),
    ("c.php", [finding "c.php"])]

/-- Sources that refuse the provenance of the second file. -/
def refusingSecond : Sources where
  lint := .done threeFiles
  blame file :=
    if file = "b.php" then ⟨[⟨["blame", file], none⟩], .error wordless⟩
    else ⟨[⟨["blame", file], none⟩], .ok []⟩

/-- A fault of the kind that ends iterations. -/
def exhausted : Fault := .reported ⟨.iterationOver, some "blame refused"⟩

/-- A report on one file. -/
def oneFile : Report where
  totals := { errors := 1 }
  files := [("a.php", [finding "a.php"])]

/-- Sources that refuse the provenance of the file by such a fault. -/
def overrunning : Sources where
  lint := .done oneFile
  blame _ := .fail exhausted

end Review

end LintGate
