import LintGate.Annotations
import Mathlib.Data.List.Induction

/-!
# Every finding stands with its file

Annotations are written on request, and requests come in any order: a file is begun, a finding is
written, a file is reported as a whole; files take turns, or are begun again. Nobody reads the two
channels together. So each of them has to tell the file of every finding on it by itself, the
primary channel by the closest marker above the finding's line and the log by the line right above
(`Attributed`).

The marker of a file is written late, and only if a new finding follows, so what is remembered has
to be right at any time: it is the marker of the file that was begun last, and if it counts as
written, it is the last marker on the primary channel (`Kept`). Every step keeps this
(`Kept.step`). A line is then attributed by the step that wrote it (`exists_step_of_split`).
-/

namespace LintGate

/-! ## Lines and channels -/

/-- **A marker**, by how it begins. -/
def isMarker (line : String) : Bool := "<file ".toList.isPrefixOf line.toList

theorem isMarker_fileMarker (root : Path) (file : String) :
    isMarker (fileMarker root file) = true := by
  have hopen : "<file name=\"".toList = "<file ".toList ++ "name=\"".toList := by decide
  unfold isMarker fileMarker
  simp only [String.toList_append, hopen, List.append_assoc]
  exact List.isPrefixOf_iff_prefix.2 (List.prefix_append _ _)

theorem isMarker_errorLine (f : Finding) : isMarker (errorLine f) = false := by
  have hopen : "<error line=\"".toList = '<' :: 'e' :: "rror line=\"".toList := by decide
  have hmarker : "<file ".toList = '<' :: 'f' :: "ile ".toList := by decide
  unfold isMarker errorLine
  simp only [String.toList_append, hopen, hmarker, List.cons_append]
  rfl

/-- The markers among some lines. -/
def markersIn (lines : List String) : List String := lines.filter isMarker

/-- The other lines, each of which is that of a finding. -/
def findingLinesIn (lines : List String) : List String := lines.filter fun l => !isMarker l

/-- **The lines on a channel.** -/
def linesOn (c : Channel) (ls : List Written) : List String :=
  ls.filterMap fun w => if w.1 = c then some w.2 else none

section Lines

variable {c : Channel}

@[simp] theorem markersIn_append (xs ys : List String) :
    markersIn (xs ++ ys) = markersIn xs ++ markersIn ys := List.filter_append ..

@[simp] theorem findingLinesIn_append (xs ys : List String) :
    findingLinesIn (xs ++ ys) = findingLinesIn xs ++ findingLinesIn ys := List.filter_append ..

@[simp] theorem markersIn_nil : markersIn [] = [] := rfl

@[simp] theorem linesOn_nil : linesOn c [] = [] := rfl

@[simp] theorem linesOn_append (ls ms : List Written) :
    linesOn c (ls ++ ms) = linesOn c ls ++ linesOn c ms := List.filterMap_append ..

/-- A line that stands on a channel was written to it, with the same lines of the channel above. -/
theorem exists_split_of_linesOn {ls : List Written} {above below : List String} {line : String}
    (h : linesOn c ls = above ++ line :: below) :
    ∃ before behind, ls = before ++ (c, line) :: behind ∧ linesOn c before = above := by
  obtain ⟨ls₁, ls₂, rfl, habove, hrest⟩ := List.filterMap_eq_append_iff.1 h
  obtain ⟨skipped, ⟨d, l⟩, behind, rfl, hskipped, hw, -⟩ := List.filterMap_eq_cons_iff.1 hrest
  have hnone : linesOn c skipped = [] := List.filterMap_eq_nil_iff.2 hskipped
  obtain ⟨rfl, rfl⟩ : d = c ∧ l = line := by simpa using hw
  refine ⟨ls₁ ++ skipped, behind, by simp, ?_⟩
  rw [linesOn_append, hnone, List.append_nil]
  exact habove

end Lines

/-- **The channel of a finding**: new ones become annotations, and the others are logged. -/
def Judged.channel (j : Judged) : Channel := if j.isNew then .primary else .log

namespace Annotations

/-! ## Steps and requests -/

/-- The file that a step begins. -/
def Step.file? : Step → Option String
  | .start file => some file
  | .finding _ => none

/-- The finding that a step writes. -/
def Step.finding? : Step → Option Judged
  | .start _ => none
  | .finding j => some j

/-- **The file that was begun last.** -/
def begun? (ss : List Step) : Option String := (ss.filterMap Step.file?).getLast?

/-- The findings that are written. -/
def findings (ss : List Step) : List Judged := ss.filterMap Step.finding?

/-- **What is asked for.** -/
inductive Request
  /-- A file is begun. -/
  | start (file : String)
  /-- A finding of the file is written. -/
  | finding (j : Judged)
  /-- A file is reported as a whole. -/
  | report (file : String) (js : List Judged)
  deriving DecidableEq, Repr

/-- The steps of a request. -/
def Request.steps : Request → List Step
  | .start file => [.start file]
  | .finding j => [.finding j]
  | .report file js => Annotations.report file js

/-- The request begins a file. -/
def Request.begins : Request → Bool
  | .finding _ => false
  | _ => true

/-- **What is written in some steps**, from the beginning. -/
def written (root : Path) (ss : List Step) : List Written := allLines root {} ss

/-- The lines of the findings that go to a channel. -/
def findingLines (c : Channel) (ss : List Step) : List String :=
  ((findings ss).filter fun j => j.channel = c).map fun j => errorLine j.finding

variable {root : Path} {a : Annotations} {s : Step} {ss : List Step}

theorem isMarker_start (root : Path) (file : String) :
    isMarker (start root file).marker = true := isMarker_fileMarker root file

@[simp] theorem begun?_append_start (file : String) : begun? (ss ++ [.start file]) = some file := by
  simp [begun?, Step.file?]

@[simp] theorem begun?_append_finding (j : Judged) :
    begun? (ss ++ [.finding j]) = begun? ss := by
  simp [begun?, Step.file?]

theorem afterAll_append (a : Annotations) (root : Path) (ss ts : List Step) :
    a.afterAll root (ss ++ ts) = (a.afterAll root ss).afterAll root ts := List.foldl_append ..

/-! ## The lines of a finding -/

/-- What stands above a finding's line: the marker, unless the finding is new and the marker was
written. -/
def heading (a : Annotations) (j : Judged) : List Written :=
  if j.isNew && a.opened then [] else [(j.channel, a.marker)]

/-- A finding adds its heading and its line. -/
theorem lines_eq (a : Annotations) (j : Judged) :
    a.lines j = a.heading j ++ [(j.channel, errorLine j.finding)] := by
  obtain ⟨f, o⟩ := j
  cases o <;> cases ho : a.opened <;> simp [lines, heading, Judged.channel, Judged.isNew, ho]

/-- A heading has no line of a finding. -/
theorem findingLinesIn_heading (hm : isMarker a.marker = true) (c : Channel) (j : Judged) :
    findingLinesIn (linesOn c (a.heading j)) = [] := by
  unfold heading
  split
  · rfl
  · by_cases hc : j.channel = c <;> simp [linesOn, findingLinesIn, hc, hm]

/-- **A finding leaves its line** on its channel, and no other such line. -/
theorem findingLinesIn_lines (hm : isMarker a.marker = true) (c : Channel) (j : Judged) :
    findingLinesIn (linesOn c (a.lines j))
      = if j.channel = c then [errorLine j.finding] else [] := by
  rw [lines_eq, linesOn_append, findingLinesIn_append, findingLinesIn_heading hm]
  by_cases hc : j.channel = c <;> simp [linesOn, findingLinesIn, hc, isMarker_errorLine]

/-- **A finding leaves the marker** on the primary channel if it is new and the marker was not
written yet. -/
theorem markersIn_lines (hm : isMarker a.marker = true) (j : Judged) :
    markersIn (linesOn .primary (a.lines j))
      = if j.isNew && !a.opened then [a.marker] else [] := by
  have hline : markersIn (linesOn .primary [(j.channel, errorLine j.finding)]) = [] := by
    by_cases hc : j.channel = .primary <;> simp [linesOn, markersIn, hc, isMarker_errorLine]
  rw [lines_eq, linesOn_append, markersIn_append, hline, List.append_nil]
  cases hn : j.isNew <;> cases ho : a.opened <;>
    simp [heading, Judged.channel, linesOn, markersIn, hn, ho, hm]

/-- **What is no marker is the line of a finding**, and its heading stands above it. -/
theorem eq_finding_of_split (hm : isMarker a.marker = true) {pre post : List Written} {w : Written}
    (h : a.stepLines s = pre ++ w :: post) (hw : isMarker w.2 = false) :
    ∃ j, s = .finding j ∧ w = (j.channel, errorLine j.finding) ∧ pre = a.heading j := by
  cases s with
  | start file => simp [stepLines] at h
  | finding j =>
    refine ⟨j, rfl, ?_⟩
    rw [stepLines, lines_eq] at h
    unfold heading at h ⊢
    by_cases hopened : (j.isNew && a.opened) = true
    · rw [if_pos hopened] at h ⊢
      cases pre with
      | nil =>
        obtain ⟨rfl, -⟩ : (j.channel, errorLine j.finding) = w ∧ _ := by simpa using h
        exact ⟨rfl, rfl⟩
      | cons v pre => simp at h
    · rw [if_neg hopened] at h ⊢
      rcases pre with _ | ⟨v, _ | ⟨v', pre⟩⟩
      · -- the first line is the marker
        obtain ⟨rfl, -⟩ : (j.channel, a.marker) = w ∧ _ := by simpa using h
        rw [hm] at hw
        cases hw
      · obtain ⟨rfl, rfl, -⟩ : (j.channel, a.marker) = v ∧
            (j.channel, errorLine j.finding) = w ∧ _ := by simpa using h
        exact ⟨rfl, rfl⟩
      · simp at h

/-! ## What is remembered -/

/-- **What is remembered is right**: it is a marker, and once it was written it is the last one on
the primary channel. -/
structure Kept (a : Annotations) (ls : List Written) : Prop where
  marker : isMarker a.marker = true
  opened : a.opened = true → (markersIn (linesOn .primary ls)).getLast? = some a.marker

/-- Where a file has just been begun, nothing counts as written. -/
theorem kept_start (root : Path) (file : String) (ls : List Written) :
    Kept (.start root file) ls := ⟨isMarker_start root file, nofun⟩

/-- **Every step keeps it right.** -/
theorem Kept.step {ls : List Written} (h : Kept a ls) (s : Step) :
    Kept (a.afterStep root s) (ls ++ a.stepLines s) := by
  cases s with
  | start file => exact kept_start root file _
  | finding j =>
    refine ⟨h.marker, fun hopened => ?_⟩
    have hlast : a.opened = true ∨ j.isNew = true := by
      simpa [afterStep, after] using hopened
    show (markersIn (linesOn .primary (ls ++ a.lines j))).getLast? = some a.marker
    rw [linesOn_append, markersIn_append, markersIn_lines h.marker]
    cases ho : a.opened with
    | true => simpa using h.opened ho
    | false => simp [hlast.resolve_left (by simp [ho])]

/-- **The marker is the last one above a new finding**: it is written before it, or stands there
already. -/
theorem Kept.getLast?_primary {ls : List Written} (h : Kept a ls) {j : Judged}
    (hc : j.channel = .primary) :
    (markersIn (linesOn .primary (ls ++ a.heading j))).getLast? = some a.marker := by
  have hn : j.isNew = true := by
    by_contra hn
    simp [Judged.channel, hn] at hc
  rw [linesOn_append, markersIn_append]
  cases ho : a.opened with
  | true => simpa [heading, hn, ho] using h.opened ho
  | false => simp [heading, hn, ho, linesOn, hc, markersIn, h.marker]

/-- The marker is the last line above a finding that is logged. -/
theorem getLast?_log {ls : List Written} {j : Judged} (hc : j.channel = .log) :
    (linesOn .log (ls ++ a.heading j)).getLast? = some a.marker := by
  have hn : j.isNew = false := by
    by_contra hn
    simp [Judged.channel, hn] at hc
  simp [heading, hn, linesOn, hc]

/-- **All steps keep it right.** -/
theorem Kept.steps {ls : List Written} (h : Kept a ls) (ss : List Step) :
    Kept (a.afterAll root ss) (ls ++ a.allLines root ss) := by
  induction ss generalizing a ls with
  | nil => simpa [afterAll, allLines] using h
  | cons s ss ih =>
    rw [allLines, ← List.append_assoc]
    exact ih (h.step s)

/-- Once a file was begun, what is remembered is right. -/
theorem kept_of_cons_start (root : Path) (file : String) (ss : List Step) :
    Kept (({} : Annotations).afterAll root (.start file :: ss))
      (written root (.start file :: ss)) :=
  (kept_start root file []).steps ss

/-- **The marker that is remembered is that of the file begun last.** -/
theorem marker_afterAll {file : String} (h : begun? ss = some file) :
    (a.afterAll root ss).marker = fileMarker root file := by
  induction ss using List.reverseRecOn with
  | nil => simp [begun?] at h
  | append_singleton ss s ih =>
    rw [afterAll_append]
    cases s with
    | start other =>
      obtain rfl : other = file := by simpa using h
      rfl
    | finding j =>
      rw [begun?_append_finding] at h
      exact ih h

/-! ## The step that wrote a line -/

/-- **Every line was written in a step**, below the lines of the steps before. -/
theorem exists_step_of_split {above below : List Written} {w : Written}
    (h : a.allLines root ss = above ++ w :: below) :
    ∃ before s after pre post, ss = before ++ s :: after ∧
      above = a.allLines root before ++ pre ∧
      (a.afterAll root before).stepLines s = pre ++ w :: post := by
  induction ss generalizing a above with
  | nil => simp [allLines] at h
  | cons s ss ih =>
    -- the line is one of those behind the first step, or the first step wrote it
    have hlater : ∀ {rest : List Written}, above = a.stepLines s ++ rest →
        (a.afterStep root s).allLines root ss = rest ++ w :: below →
        ∃ before t after pre post, s :: ss = before ++ t :: after ∧
          above = a.allLines root before ++ pre ∧
          (a.afterAll root before).stepLines t = pre ++ w :: post := by
      rintro rest rfl hrest
      obtain ⟨before, t, after, pre, post, rfl, rfl, hstep⟩ := ih hrest
      exact ⟨s :: before, t, after, pre, post, rfl, by simp [allLines], hstep⟩
    rw [allLines] at h
    rcases List.append_eq_append_iff.1 h with ⟨rest, habove, hrest⟩ | ⟨post, hstep, hrest⟩
    · exact hlater habove hrest
    · cases post with
      | nil =>
        rw [List.append_nil] at hstep
        exact hlater (hstep.symm.trans (List.append_nil _).symm) hrest.symm
      | cons v post =>
        obtain ⟨rfl, -⟩ : w = v ∧ _ := by simpa using hrest
        exact ⟨[], s, ss, above, post, rfl, rfl, hstep⟩

/-- **Every finding leaves one line**, on its own channel, in the order of the steps. -/
theorem findingLinesIn_allLines (hm : isMarker a.marker = true) (c : Channel) (ss : List Step) :
    findingLinesIn (linesOn c (a.allLines root ss)) = findingLines c ss := by
  induction ss generalizing a with
  | nil => rfl
  | cons s ss ih =>
    cases s with
    | start file => exact ih (isMarker_start root file)
    | finding j =>
      show findingLinesIn (linesOn c (a.lines j ++ (a.after j).allLines root ss)) = _
      rw [linesOn_append, findingLinesIn_append, findingLinesIn_lines hm, ih (a := a.after j) hm]
      by_cases hc : j.channel = c <;> simp [findingLines, findings, Step.finding?, hc]

/-- **The markers of one file**: one if there is a new finding and none was written, and no
other. -/
theorem markersIn_findings (hm : isMarker a.marker = true) (js : List Judged) :
    markersIn (linesOn .primary (a.allLines root (js.map .finding)))
      = if js.any Judged.isNew && !a.opened then [a.marker] else [] := by
  induction js generalizing a with
  | nil => rfl
  | cons j js ih =>
    show markersIn (linesOn .primary (a.lines j ++ (a.after j).allLines root _)) = _
    rw [linesOn_append, markersIn_append, markersIn_lines hm, ih (a := a.after j) hm]
    cases hn : j.isNew <;> cases ho : a.opened <;> simp [after, hn, ho]

/-! ## Attribution -/

/-- **A line on a channel reports a finding of a file**: the file was the one begun last when the
finding was written, and above the line are those of all findings that went to the channel
before. -/
def Reports (ss : List Step) (c : Channel) (above : List String) (line file : String) : Prop :=
  ∃ before j after, ss = before ++ .finding j :: after ∧ begun? before = some file ∧
    j.channel = c ∧ line = errorLine j.finding ∧ findingLinesIn above = findingLines c before

/-- **Every finding stands with its file.** -/
structure Attributed (root : Path) (ss : List Step) : Prop where
  /-- On the primary channel, the closest marker above a finding's line is that of its file. -/
  primary {above below : List String} {line : String}
    (cut : linesOn .primary (written root ss) = above ++ line :: below)
    (finding : isMarker line = false) :
    ∃ file, Reports ss .primary above line file ∧
      (markersIn above).getLast? = some (fileMarker root file)
  /-- On the log, the line right above a finding's line is the marker of its file. -/
  log {above below : List String} {line : String}
    (cut : linesOn .log (written root ss) = above ++ line :: below)
    (finding : isMarker line = false) :
    ∃ file, Reports ss .log above line file ∧ above.getLast? = some (fileMarker root file)
  /-- From the start of a file on, as long as no other is begun, its marker is written to the
  primary channel once if there is a new finding, and otherwise not at all. -/
  marked {before during after : List Step} {file : String}
    (stretch : ss = before ++ .start file :: (during ++ after))
    (same : ∀ s ∈ during, s.file? = none) :
    ∃ ls rest, written root ss = written root before ++ ls ++ rest ∧
      written root (before ++ .start file :: during) = written root before ++ ls ∧
      markersIn (linesOn .primary ls)
        = if (findings during).any Judged.isNew then [fileMarker root file] else []
  /-- Every finding leaves one line, on its own channel, in the order in which they are written. -/
  once (c : Channel) : findingLinesIn (linesOn c (written root ss)) = findingLines c ss

/-- Steps that begin no file write findings. -/
theorem eq_map_findings (h : ∀ s ∈ ss, s.file? = none) : ss = (findings ss).map .finding := by
  induction ss with
  | nil => rfl
  | cons s ss ih =>
    cases s with
    | start file => simpa [Step.file?] using h _ List.mem_cons_self
    | finding j =>
      have hrest := ih fun s hs => h s (List.mem_cons_of_mem _ hs)
      simpa [findings, Step.finding?] using hrest

/-- The markers of a file that is begun and not left. -/
theorem markersIn_start {file : String} (h : ∀ s ∈ ss, s.file? = none) :
    markersIn (linesOn .primary ((start root file).allLines root ss))
      = if (findings ss).any Judged.isNew then [fileMarker root file] else [] := by
  rw [eq_map_findings h, markersIn_findings (isMarker_start root file)]
  simp [start, findings, List.filterMap_map, Function.comp_def, Step.finding?]

/-- **The finding that a line is of**, with what was remembered when it was written. -/
theorem exists_finding_of_cut {first : String} {c : Channel} {above below : List String}
    {line : String} (cut : linesOn c (written root (.start first :: ss)) = above ++ line :: below)
    (finding : isMarker line = false) :
    ∃ (before : List Step) (a : Annotations) (j : Judged) (file : String),
      Reports (.start first :: ss) c above line file ∧ j.channel = c ∧
      Kept a (written root before) ∧ a.marker = fileMarker root file ∧
      above = linesOn c (written root before ++ a.heading j) := by
  obtain ⟨above', behind, hsplit, rfl⟩ := exists_split_of_linesOn cut
  obtain ⟨before, s, after, pre, post, hss, rfl, hstep⟩ := exists_step_of_split hsplit
  -- the line was not written in the first step, which begins a file
  obtain ⟨ts, rfl⟩ : ∃ ts, before = .start first :: ts := by
    cases before with
    | nil =>
      obtain ⟨rfl, -⟩ : Step.start first = s ∧ _ := by simpa using hss
      simp [stepLines] at hstep
    | cons t ts =>
      obtain ⟨rfl, -⟩ : Step.start first = t ∧ _ := by simpa using hss
      exact ⟨ts, rfl⟩
  have hkept := kept_of_cons_start root first ts
  obtain ⟨j, rfl, hw, rfl⟩ := eq_finding_of_split hkept.marker hstep finding
  obtain ⟨hc, hline⟩ : c = j.channel ∧ line = errorLine j.finding := by simpa using hw
  obtain ⟨file, hfile⟩ : ∃ file, begun? (.start first :: ts) = some file := by
    simp [begun?, Step.file?, List.getLast?_cons]
  refine ⟨_, _, j, file, ⟨_, j, after, hss, hfile, hc.symm, hline, ?_⟩, hc.symm, hkept,
    marker_afterAll hfile, rfl⟩
  rw [linesOn_append, findingLinesIn_append, findingLinesIn_heading hkept.marker, List.append_nil]
  exact findingLinesIn_allLines (isMarker_start root first) c ts

/-- Requests of which the first begins a file come to nothing, or to steps of which the first
does. -/
theorem steps_cases {rs : List Request} (h : ∀ r ∈ rs.head?, r.begins = true) :
    rs.flatMap Request.steps = [] ∨
      ∃ file ss, rs.flatMap Request.steps = .start file :: ss := by
  cases rs with
  | nil => exact .inl rfl
  | cons r rs =>
    cases r with
    | start file => exact .inr ⟨file, rs.flatMap Request.steps, rfl⟩
    | finding j => cases h _ rfl
    | report file js =>
      exact .inr ⟨file, js.map .finding ++ rs.flatMap Request.steps, rfl⟩

/-- **Every finding stands with its file**, whatever is asked for, once a file was begun. -/
theorem attributed (root : Path) {rs : List Request} (h : ∀ r ∈ rs.head?, r.begins = true) :
    Attributed root (rs.flatMap Request.steps) := by
  obtain hnil | ⟨first, ss, hss⟩ := steps_cases h
  · rw [hnil]
    refine ⟨fun cut => ?_, fun cut => ?_, fun stretch => ?_, fun c => rfl⟩
    · simp [written, allLines] at cut
    · simp [written, allLines] at cut
    · simp at stretch
  rw [hss]
  refine ⟨fun cut finding => ?_, fun cut finding => ?_, ?_, fun c => ?_⟩
  · obtain ⟨before, a, j, file, hreports, hc, hkept, hfile, rfl⟩ :=
      exists_finding_of_cut cut finding
    exact ⟨file, hreports, hfile ▸ hkept.getLast?_primary hc⟩
  · obtain ⟨before, a, j, file, hreports, hc, -, hfile, rfl⟩ := exists_finding_of_cut cut finding
    exact ⟨file, hreports, hfile ▸ getLast?_log hc⟩
  · intro before during after file stretch same
    have hbefore : written root (before ++ .start file :: during)
        = written root before ++ (start root file).allLines root during :=
      allLines_append root {} before (.start file :: during)
    have hall := allLines_append root {} (before ++ .start file :: during) after
    rw [List.append_assoc, List.cons_append, ← stretch] at hall
    exact ⟨_, _, hall.trans (congrArg (· ++ _) hbefore), hbefore, markersIn_start same⟩
  · exact findingLinesIn_allLines (isMarker_start root first) c ss

/-- A finding with this message. -/
def remark (message : String) (origin : Origin) : Judged :=
  ⟨⟨"", 3, 1, .warning, message, "S"⟩, origin⟩

/-- Requests by which two files take turns, and in which one of them is begun without need. -/
def turns : List Request := [
  .start "a.php", .finding (remark "old" .inherited), .start "b.php",
  .report "a.php" [remark "older" .inherited, remark "new" .introduced],
  .finding (remark "newer" .introduced), .report "b.php" [remark "new" .introduced]]

/-- The second of the new findings, which has a finding above it and no marker, stands with its
file. -/
theorem attributed_turns :
    (∀ r ∈ turns.head?, r.begins = true) ∧
    linesOn .primary (written .root (turns.flatMap Request.steps))
      = ["<file name=\"a.php\">", errorLine (remark "new" .introduced).finding] ++
        errorLine (remark "newer" .introduced).finding ::
        ["<file name=\"b.php\">", errorLine (remark "new" .introduced).finding] ∧
    ∃ file,
      Reports (turns.flatMap Request.steps) .primary
        ["<file name=\"a.php\">", errorLine (remark "new" .introduced).finding]
        (errorLine (remark "newer" .introduced).finding) file ∧
      fileMarker .root file = "<file name=\"a.php\">" := by
  have hbegins : ∀ r ∈ turns.head?, r.begins = true := by decide
  have hcut : linesOn .primary (written .root (turns.flatMap Request.steps))
      = ["<file name=\"a.php\">", errorLine (remark "new" .introduced).finding] ++
        errorLine (remark "newer" .introduced).finding ::
        ["<file name=\"b.php\">", errorLine (remark "new" .introduced).finding] := by
    decide +kernel
  obtain ⟨file, hreports, hmarker⟩ :=
    (attributed .root hbegins).primary hcut (isMarker_errorLine _)
  have hlast : (markersIn ["<file name=\"a.php\">",
      errorLine (remark "new" .introduced).finding]).getLast? = some "<file name=\"a.php\">" := by
    decide +kernel
  exact ⟨hbegins, hcut, file, hreports, Option.some.inj (hmarker.symm.trans hlast)⟩

end Annotations

end LintGate
