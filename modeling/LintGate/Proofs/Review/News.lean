import LintGate.Proofs.Review.Announcements
import LintGate.Proofs.Review.Faults

/-!
# What becomes an annotation

Of the lines of a review those on the primary channel become annotations. Which ones there are is
told by the files that the review went through before it ended, however it ended: for each file with
a finding that the change brought in there is its marker, and below it one line per such finding
(`annotated_run`). Nothing else is ever written there.
-/

namespace LintGate

namespace Review

/-- **The lines that become annotations.** -/
def annotated (ls : List Written) : List String :=
  (ls.filter fun w => w.1 == .primary).map Prod.snd

@[simp] theorem annotated_append (ls ms : List Written) :
    annotated (ls ++ ms) = annotated ls ++ annotated ms := by
  rw [annotated, List.filter_append, List.map_append]
  rfl

theorem annotated_flatMap {α : Type} (xs : List α) (g : α → List Written) :
    annotated (xs.flatMap g) = xs.flatMap fun x => annotated (g x) := by
  rw [annotated, List.filter_flatMap, List.map_flatMap]
  rfl

/-- Annotations are announced. -/
theorem annotated_announced (ls : List Written) : annotated (announced ls) = annotated ls := by
  unfold annotated announced
  rw [List.filter_filter]
  refine congrArg (List.map Prod.snd) (List.filter_congr fun w _ => ?_)
  cases w.1 <;> rfl

/-- The findings of a file that the change brought in. -/
def broughtIn (s : Settings) (sources : Sources) (e : String × List Finding) :
    String × List Finding :=
  (e.1, e.2.filter ((sources.maps e.1).brings s.base))

/-- **The files that a review goes through**: the judged ones, up to the first whose provenance is
refused. -/
def goneThrough (s : Settings) (sources : Sources) : Table String (List Finding) :=
  (judgedFiles s sources).takeWhile fun e => (sources.blame e.1).result.isOk

/-- **The news of a review**: the files that it goes through and in which the change brought in a
finding, each with these findings. -/
def news (s : Settings) (sources : Sources) : Table String (List Finding) :=
  ((goneThrough s sources).map (broughtIn s sources)).filter fun e => !e.2.isEmpty

/-- **The annotations of a file with news**: its marker, and one line per finding. -/
def annotations (s : Settings) (e : String × List Finding) : List String :=
  fileMarker s.root e.1 :: e.2.map errorLine

variable {s : Settings} {sources : Sources} {r : Report}

/-- What findings annotate: their lines. -/
theorem annotated_announcement (strict : Bool) (fs : List Finding) :
    annotated (fs.flatMap (announcement strict)) = fs.map errorLine := by
  rw [annotated_flatMap]
  have hone : ∀ f, annotated (announcement strict f) = [errorLine f] := by
    intro f
    cases hm : f.matters strict <;> simp [annotated, announcement, hm]
  rw [funext hone]
  exact List.map_eq_flatMap.symm

/-- **What a file annotates**, if it has news. -/
theorem annotated_announcements (s : Settings) (sources : Sources) (e : String × List Finding) :
    annotated (announcements s e.1 e.2 (sources.maps e.1))
      = ([broughtIn s sources e].filter fun e => !e.2.isEmpty).flatMap (annotations s) := by
  unfold announcements broughtIn
  cases hnews : e.2.filter ((sources.maps e.1).brings s.base) with
  | nil => rfl
  | cons f fs =>
    have hmarker : annotated [(.primary, fileMarker s.root e.1)] = [fileMarker s.root e.1] := rfl
    show annotated ([(.primary, fileMarker s.root e.1)] ++ (f :: fs).flatMap _) = _
    rw [annotated_append, annotated_announcement, hmarker]
    exact (List.append_nil (annotations s (e.1, f :: fs))).symm

/-- What some files annotate. -/
theorem annotated_fileLines (s : Settings) (sources : Sources)
    (files : Table String (List Finding)) :
    annotated (fileLines s sources.maps files)
      = ((files.map (broughtIn s sources)).filter fun e => !e.2.isEmpty).flatMap
          (annotations s) := by
  rw [← annotated_announced, fileLines, announced_flatMap, annotated_flatMap]
  simp only [announced_fileDeeds, annotated_announcements]
  induction files with
  | nil => rfl
  | cons e files ih =>
    rw [List.flatMap_cons, ih, ← List.flatMap_append, ← List.filter_append]
    rfl

/-- The lines about a report annotate nothing. -/
theorem annotated_openingLines (r : Report) : annotated (openingLines r) = [] := rfl

/-- Recording a fault annotates nothing. -/
theorem annotated_conclude {strict : Bool} {x : Trace × Option Fault} {ls : List Written}
    {d : Decision} {f : Fault} (h : seen x = (ls, d, some f)) :
    annotated (conclude .open strict x).1.lines = annotated ls := by
  by_cases hf : f.isRecorded = true
  · rw [lines_of_seen (seen_conclude_of_fault hf h), annotated_append]
    exact List.append_nil _
  · rw [lines_of_seen (seen_conclude_of_not_recorded hf h)]

/-- **The annotations of a review** are those of its news, file by file, however it ends. -/
theorem annotated_run (s : Settings) (sources : Sources) :
    annotated (run s sources .open).1.lines = (news s sources).flatMap (annotations s) := by
  unfold news goneThrough
  cases hl : sources.lint.result with
  | error f =>
    rw [lines_of_seen (seen_run s sources .open),
      annotated_conclude (seen_perform_of_lint_error hl), judgedFiles_of_error hl]
    rfl
  | ok r =>
    cases hn : r.totals.notice? s.strict with
    | some n =>
      rw [lines_of_seen (seen_run_of_notice hl hn), judgedFiles_of_notice hl hn]
      rfl
    | none =>
      have hfiles := judgedFiles_of_none hl hn
      rcases sources.answer_or_refuse hl with hanswer | ⟨before, e, behind, f, hrefuse⟩
      · have hall : r.files.takeWhile (fun e => (sources.blame e.1).result.isOk) = r.files := by
          have hok : ∀ e ∈ r.files, (sources.blame e.1).result.isOk = true := by
            intro e he
            rw [hanswer.blame e he]
            rfl
          rw [← List.append_nil r.files, List.takeWhile_append_of_pos hok]
          rfl
        rw [lines_of_seen (seen_run_of_answer hanswer hn), annotated_append,
          annotated_openingLines, List.nil_append, annotated_fileLines, hfiles, hall]
      · have hbefore : r.files.takeWhile (fun e => (sources.blame e.1).result.isOk) = before := by
          rw [hrefuse.files, List.takeWhile_append_of_pos]
          · rw [List.takeWhile_cons_of_neg, List.append_nil]
            rw [hrefuse.refused]
            exact Bool.false_ne_true
          · intro b hb
            rw [hrefuse.blame b hb]
            rfl
        rw [lines_of_seen (seen_run s sources .open),
          annotated_conclude (seen_perform_of_refusal hrefuse hn), annotated_append,
          annotated_openingLines, List.nil_append, annotated_fileLines, hfiles, hbefore]

end Review

end LintGate
