import LintGate.Linter
import LintGate.Proofs.Attempt
import LintGate.Proofs.Text.Trimming

/-!
# What a finished linter stands for

A linter that did not fail ends with status zero, one or two, and prints a report. Then, and only
then, there should be something to go on with: the report is what its output reads as, and in every
other case the linter has failed as a tool (`AnswersFor`). The code asks less of the status, for it
only looks whether it is too high, and it passes one kind of unreadable output on as a fault of its
own. So there are two kinds of finished linters that are not answered for. One was killed by a
signal, which makes its status negative, and had printed a report before (`IsLeftBehind`). The other
printed brackets that are nested too deeply for the reader (`IsTooDeep`). `lint_answersFor_iff` says
that these are all.
-/

namespace LintGate

/-- **The report that a finished linter printed**, if it can be read. -/
def Finished.report? (f : Finished) : Option Report :=
  (Text.trimmed? f.outputText).bind fun document => (Report.parse document).toOption

namespace Linter

variable {command : List String} {f : Finished} {r : Report}

/-! ## How a finished linter is taken -/

/-- The document in a finished linter's output. -/
def documentOf (f : Finished) : String := Text.trim f.outputText

/-- **How a finished linter is taken**: as failed by its status, as giving a report, or as giving
nothing that can be read. Brackets that are nested too deeply are a case of their own. -/
inductive Taken (f : Finished) (x : Except Fault Report) : Prop
  | failed (t : ToolFault) (high : highestStatus < f.status) (eq : x = .error (.tool t))
  | report (r : Report) (low : f.status ≤ highestStatus)
      (read : Report.parse (documentOf f) = .ok r) (eq : x = .ok r)
  | tooDeep (b : Json.Bracket) (low : f.status ≤ highestStatus)
      (read : Report.parse (documentOf f) = .error (.text (.nesting b)))
      (eq : x = .error (.nesting b))
  | unreadable (t : ToolFault) (why : Report.Unreadable) (low : f.status ≤ highestStatus)
      (read : Report.parse (documentOf f) = .error why) (shallow : ∀ b, why ≠ .text (.nesting b))
      (eq : x = .error (.tool t))

/-- Nothing can be read where nothing is printed. -/
theorem parse_empty : ∃ why, Report.parse "" = .error why ∧ ∀ b, why ≠ .text (.nesting b) :=
  ⟨_, rfl, nofun⟩

/-- A finished linter printed nothing, or its document. -/
theorem document_cases (f : Finished) :
    Text.trimmed? f.outputText = none ∧ documentOf f = "" ∨
      Text.trimmed? f.outputText = some (documentOf f) := by
  by_cases hempty : documentOf f = ""
  · refine .inl ⟨Option.eq_none_iff_forall_not_mem.2 fun document hdocument => ?_, hempty⟩
    obtain ⟨htrim, hne⟩ := Text.trimmed?_eq_some_iff.1 hdocument
    exact hne (htrim.symm.trans hempty)
  · exact .inr (Text.trimmed?_eq_some_iff.2 ⟨rfl, hempty⟩)

/-- The report that is printed is what the document reads as. -/
theorem report?_eq_some_iff : f.report? = some r ↔ Report.parse (documentOf f) = .ok r := by
  unfold Finished.report?
  obtain ⟨hnone, hempty⟩ | hsome := document_cases f
  · obtain ⟨why, hread, -⟩ := parse_empty
    simp [hnone, hempty, hread]
  · rw [hsome, Option.bind_some]
    cases Report.parse (documentOf f) <;> simp [Except.toOption]

/-- A document that cannot be read is the linter's failure, unless it is nested too deeply. -/
theorem ofUnreadable_of_shallow {why : Report.Unreadable} (h : ∀ b, why ≠ .text (.nesting b)) :
    Fault.ofUnreadable why = .tool { cause := .unreadable why } := by
  unfold Fault.ofUnreadable
  split
  · next b => exact absurd rfl (h b)
  · rfl

/-- A finished linter that is read is taken in one of the ways. -/
theorem taken_reportOf (command : List String) (f : Finished) : Taken f (reportOf command f) := by
  unfold reportOf
  by_cases hs : highestStatus < f.status
  · rw [if_pos hs]
    exact .failed _ hs rfl
  have hlow : f.status ≤ highestStatus := Int.not_lt.1 hs
  rw [if_neg hs]
  obtain ⟨hnone, hempty⟩ | hsome := document_cases f
  · obtain ⟨why, hread, hshallow⟩ := parse_empty
    rw [hnone]
    exact .unreadable _ why hlow (hempty ▸ hread) hshallow rfl
  rw [hsome]
  cases hread : Report.parse (documentOf f) with
  | ok r => exact .report r hlow hread (by simp [hread, Except.mapError])
  | error why =>
    have htaken : (Report.parse (documentOf f)).mapError Fault.ofUnreadable
        = .error (Fault.ofUnreadable why) := by
      rw [hread]
      rfl
    by_cases hdeep : ∃ b, why = .text (.nesting b)
    · obtain ⟨b, rfl⟩ := hdeep
      exact .tooDeep b hlow hread htaken
    · have hshallow : ∀ b, why ≠ .text (.nesting b) := fun b hb => hdeep ⟨b, hb⟩
      rw [ofUnreadable_of_shallow hshallow] at htaken
      exact .unreadable _ why hlow hread hshallow htaken

/-! ## What is asked of a finished linter -/

/-- **A finished linter vouches for a report**: it ended with a status of a linter that did not
fail, and its output is the report. -/
def Vouches (f : Finished) (r : Report) : Prop :=
  f.status ∈ [0, 1, 2] ∧ Report.parse (documentOf f) = .ok r

/-- **A finished linter is answered for**: the result is the report that it vouches for, and where
it vouches for none, the result is a tool's failure. -/
structure AnswersFor (x : Except Fault Report) (f : Finished) : Prop where
  report (r : Report) : x = .ok r ↔ Vouches f r
  failure (none : ∀ r, ¬Vouches f r) : ∃ t, x = .error (.tool t)

/-- **A killed linter left a report behind.** -/
def IsLeftBehind (f : Finished) : Prop :=
  f.status < 0 ∧ ∃ r, Report.parse (documentOf f) = .ok r

/-- **A linter that was not taken for failed printed something that is nested too deeply.** -/
def IsTooDeep (f : Finished) : Prop :=
  f.status ≤ highestStatus ∧ ∃ b, Report.parse (documentOf f) = .error (.text (.nesting b))

/-- The statuses of a linter that did not fail are those between zero and the highest one. -/
theorem vouches_iff :
    Vouches f r ↔
      0 ≤ f.status ∧ f.status ≤ highestStatus ∧ Report.parse (documentOf f) = .ok r := by
  have hstatus : f.status ∈ [0, 1, 2] ↔ 0 ≤ f.status ∧ f.status ≤ highestStatus := by
    simp only [List.mem_cons, List.not_mem_nil, or_false, highestStatus]
    omega
  rw [Vouches, hstatus, and_assoc]

/-- A finished linter vouches for one report. -/
theorem Vouches.unique {r' : Report} (h : Vouches f r) (h' : Vouches f r') : r = r' :=
  Except.ok.inj (h.2.symm.trans h'.2)

/-- A killed linter is not taken to have failed. -/
theorem IsLeftBehind.low (h : IsLeftBehind f) : f.status ≤ highestStatus := by
  have hneg := h.1
  unfold highestStatus
  omega

/-- A report answers for a linter that vouches for it. -/
theorem answersFor_ok_iff : AnswersFor (.ok r) f ↔ Vouches f r := by
  constructor
  · intro hanswers
    exact (hanswers.report r).1 rfl
  · intro hr
    refine ⟨fun r' => ⟨fun heq => Except.ok.inj heq ▸ hr, fun hr' => ?_⟩, fun hnone => ?_⟩
    · rw [hr.unique hr']
    · exact absurd hr (hnone r)

/-- A tool's failure answers for a linter that vouches for nothing, -/
theorem answersFor_tool_iff {t : ToolFault} :
    AnswersFor (.error (.tool t)) f ↔ ∀ r, ¬Vouches f r := by
  constructor
  · intro hanswers r hr
    cases (hanswers.report r).2 hr
  · exact fun hnone => ⟨fun r => iff_of_false nofun (hnone r), fun _ => ⟨t, rfl⟩⟩

/-- and what is nested too deeply answers for none. -/
theorem not_answersFor_nesting {b : Json.Bracket} : ¬AnswersFor (.error (.nesting b)) f := by
  intro hanswers
  have hnone : ∀ r, ¬Vouches f r := by
    intro r hr
    cases (hanswers.report r).2 hr
  obtain ⟨t, ht⟩ := hanswers.failure hnone
  cases ht

/-- **A finished linter is answered for unless a report was left behind or is too deep.** -/
theorem Taken.answersFor_iff {x : Except Fault Report} (h : Taken f x) :
    AnswersFor x f ↔ ¬IsLeftBehind f ∧ ¬IsTooDeep f := by
  cases h with
  | failed t high eq =>
    have hlow : ¬f.status ≤ highestStatus := Int.not_le.2 high
    rw [eq, answersFor_tool_iff]
    exact iff_of_true (fun r hr => hlow (vouches_iff.1 hr).2.1)
      ⟨fun hleft => hlow hleft.low, fun hdeep => hlow hdeep.1⟩
  | report r low read eq =>
    have hleft : IsLeftBehind f ↔ f.status < 0 := and_iff_left ⟨r, read⟩
    have hdeep : ¬IsTooDeep f := by simp [IsTooDeep, read]
    rw [eq, answersFor_ok_iff, vouches_iff, hleft, Int.not_lt]
    exact ⟨fun hr => ⟨hr.1, hdeep⟩, fun h => ⟨h.1, low, read⟩⟩
  | tooDeep b low read eq =>
    rw [eq]
    exact iff_of_false not_answersFor_nesting fun h => h.2 ⟨low, b, read⟩
  | unreadable t why low read shallow eq =>
    have hunread : ∀ r, Report.parse (documentOf f) ≠ .ok r := by simp [read]
    have hdeep : ¬IsTooDeep f := by simp [IsTooDeep, read, shallow]
    rw [eq, answersFor_tool_iff]
    exact iff_of_true (fun r hr => hunread r hr.2) ⟨fun ⟨_, r, hr⟩ => hunread r hr, hdeep⟩

/-- There is a report exactly when the output is one and the status is not too high. -/
theorem Taken.eq_ok_iff {x : Except Fault Report} (h : Taken f x) :
    x = .ok r ↔ f.status ≤ highestStatus ∧ Report.parse (documentOf f) = .ok r := by
  cases h with
  | failed t high eq =>
    subst eq
    exact iff_of_false nofun fun h => Int.not_lt.2 h.1 high
  | report r' low read eq => simp [eq, read, low]
  | tooDeep b low read eq => simp [eq, read]
  | unreadable t why low read shallow eq => simp [eq, read]

/-- A finished linter gives its report unless its status is too high. -/
theorem reportOf_eq_ok_iff :
    reportOf command f = .ok r ↔ f.status ≤ highestStatus ∧ f.report? = some r := by
  rw [report?_eq_some_iff]
  exact (taken_reportOf command f).eq_ok_iff

/-- What is no report is the linter's failure, or is too deep. -/
theorem Taken.tool_or_tooDeep {fault : Fault} (h : Taken f (.error fault)) :
    (∃ t, fault = .tool t) ∨ IsTooDeep f ∧ ∃ b, fault = .nesting b := by
  cases h with
  | failed t high eq => exact .inl ⟨t, Except.error.inj eq⟩
  | report r low read eq => cases eq
  | tooDeep b low read eq => exact .inr ⟨⟨low, b, read⟩, b, Except.error.inj eq⟩
  | unreadable t why low read shallow eq => exact .inl ⟨t, Except.error.inj eq⟩

/-- Linting some files is taking the linter that has finished. -/
theorem result_lint {run : Runner} {folder : Option Path} {linter : Path}
    {options : Table String String} {files : List String} (hfiles : files ≠ [])
    (hrun : (run (Linter.command linter options files) folder).result = .ok f) :
    (lint run folder linter options files).result
      = reportOf (Linter.command linter options files) f := by
  cases files with
  | nil => exact absurd rfl hfiles
  | cons file files => exact Attempt.result_bind_ofResult_of_ok hrun

/-- **A finished linter is answered for**, whatever its status and its output, exactly when it did
not leave a report behind as a signal killed it and did not print what is too deep for the reader.
In general there is a report when the output is one and the status is not too high; everything else
is the linter's failure, or is too deep. -/
theorem lint_answersFor_iff (run : Runner) (folder : Option Path) (linter : Path)
    (options : Table String String) (files : List String) (f : Finished) (hfiles : files ≠ [])
    (hrun : (run (Linter.command linter options files) folder).result = .ok f) :
    (AnswersFor (lint run folder linter options files).result f ↔
      ¬IsLeftBehind f ∧ ¬IsTooDeep f) ∧
    (∀ r, (lint run folder linter options files).result = .ok r ↔
      f.status ≤ highestStatus ∧ Report.parse (documentOf f) = .ok r) ∧
    ∀ fault, (lint run folder linter options files).result = .error fault →
      (∃ t, fault = .tool t) ∨ IsTooDeep f ∧ ∃ b, fault = .nesting b := by
  have htaken := taken_reportOf (Linter.command linter options files) f
  rw [← result_lint hfiles hrun] at htaken
  refine ⟨htaken.answersFor_iff, fun r => htaken.eq_ok_iff, fun fault hfault => ?_⟩
  rw [hfault] at htaken
  exact htaken.tool_or_tooDeep

/-- A linter that ended with this status and printed a report between blanks, -/
def printed (status : Int) : Finished :=
  ⟨status, some " \x7b\"totals\": \x7b\"errors\": 1\x7d\x7d\n", none⟩

/-- and a runner of such linters. -/
def printing (status : Int) : Runner := fun _ _ => .done (printed status)

/-- A linter with findings, the highest status that does not mean failure, is answered for. -/
theorem lint_answersFor_iff_findings :
    ["a.php"] ≠ [] ∧
    (printing 2 (Linter.command (.ofString "phpcs") [] ["a.php"]) none).result = .ok (printed 2) ∧
    AnswersFor (lint (printing 2) none (.ofString "phpcs") [] ["a.php"]).result (printed 2) := by
  have hread : Report.parse (documentOf (printed 2)) = .ok { totals := ⟨1, 0, 0⟩ } := by
    decide +kernel
  have hdeep : ¬IsTooDeep (printed 2) := by
    rintro ⟨-, b, hb⟩
    rw [hread] at hb
    cases hb
  exact ⟨nofun, rfl, (lint_answersFor_iff _ none _ [] ["a.php"] _ nofun rfl).1.2
    ⟨fun h => absurd h.1 (by decide), hdeep⟩⟩

/-- **A linter that a signal killed gives a report.** -/
theorem lint_of_killed :
    (lint (printing (-9)) none (.ofString "phpcs") [] ["a.php"]).result
      = .ok { totals := ⟨1, 0, 0⟩ } ∧
    ¬AnswersFor (lint (printing (-9)) none (.ofString "phpcs") [] ["a.php"]).result
      (printed (-9)) := by
  have hlint : (lint (printing (-9)) none (.ofString "phpcs") [] ["a.php"]).result
      = .ok { totals := ⟨1, 0, 0⟩ } := by decide +kernel
  refine ⟨hlint, fun hanswers => ?_⟩
  have hvouches := (hanswers.report _).1 hlint
  exact absurd hvouches.1 (by decide)

end Linter

end LintGate
