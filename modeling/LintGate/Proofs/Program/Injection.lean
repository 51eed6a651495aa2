import LintGate.Proofs.Program.Agreement
import LintGate.Proofs.Program.Output
import LintGate.Proofs.Review.News

/-!
# Who can write commands

The runner of a workflow takes every line of the output that begins with two colons for a command. A
run means to give commands in two ways only, as messages for its log and as errors, and there every
line that it writes is one. Annotation lines and status lines are written beside them, and they are
not escaped: the texts of a finding, the name of a file and the text of a fault stand in them as
they are.

`onlyCommands_run_iff` says exactly when a line that is not meant as a command reads as one. Where
a run cannot begin, it is the fault that is told; otherwise it is the news of the review, and every
other line is safe, whatever the linter and the version control system say. `onlyCommands_forged`
is a message with a line end in it that passes for a command.
-/

namespace LintGate

open Text

/-- The line that may become an annotation. -/
def Utterance.line? : Utterance → Option String
  | line text => some text
  | _ => none

/-- The lines that may become annotations are those among what is said. -/
theorem Utterance.line_mem_iff {said : List Utterance} {text : String} :
    line text ∈ said ↔ text ∈ said.filterMap line? := by
  rw [List.mem_filterMap]
  constructor
  · exact fun hu => ⟨_, hu, rfl⟩
  · rintro ⟨u, hu, hline⟩
    cases u with
    | line t =>
      obtain rfl := Option.some.inj hline
      exact hu
    | debug m => cases hline
    | error m => cases hline
    | status tone m => cases hline

namespace Program

/-- **Only commands read as commands**: no line of another utterance does. -/
def OnlyCommands (d : Display) (said : List Utterance) : Prop :=
  ∀ u ∈ said, u.isCommand = false → ∀ row ∈ u.rows d, ¬ ReadsAsCommand row

variable {d : Display} {h : Host} {i : Invocation} {a : Assignment}

/-! ## Parts of what is said -/

theorem onlyCommands_append {us vs : List Utterance} :
    OnlyCommands d (us ++ vs) ↔ OnlyCommands d us ∧ OnlyCommands d vs :=
  List.forall_mem_append

/-- The line that tells of a failed run is one. -/
theorem oneLine_failedLine (o : Outcome) : OneLine (failedLine o).toList := by
  rw [failedLine, String.toList_append, String.toList_append, oneLine_append, oneLine_append]
  exact ⟨⟨by decide, oneLine_toString _⟩, by decide⟩

/-- **The closing words** never read as commands. -/
theorem onlyCommands_closing (hd : Status.isColoured d = false) (decision : Decision) :
    OnlyCommands d (closing decision) := by
  have hstatus : ∀ {tone : Tone} {message : String}, ¬ Status.Forges d tone message →
      ∀ row ∈ (Utterance.status tone message).rows d, ¬ ReadsAsCommand row := by
    intro tone message hforges row hrow hreads
    exact hforges ((Utterance.exists_row_status_iff hd tone message).mp ⟨row, hrow, hreads⟩)
  intro u hu _
  rw [closing, List.mem_append, List.mem_singleton] at hu
  rcases hu with hu | rfl
  · obtain ⟨n, -, rfl⟩ := Option.map_eq_some_iff.mp (Option.mem_toList.mp hu)
    refine hstatus ?_
    cases n with
    | warningsIgnored =>
      exact Status.not_forges_of_oneLine (by decide) rfl (by decide) (by decide)
    | nothingFound => exact Status.not_forges_of_oneLine (by decide) rfl (by decide) (by decide)
  · split
    · have hhead : "phpcs found ".toList = 'p' :: "hpcs found ".toList := by decide
      obtain ⟨rest, hrest⟩ : ∃ rest, (failedLine decision.outcome).toList = 'p' :: rest := by
        rw [failedLine, String.toList_append, String.toList_append, hhead, List.cons_append,
          List.cons_append]
        exact ⟨_, rfl⟩
      exact hstatus
        (Status.not_forges_of_oneLine (oneLine_failedLine _) hrest (by decide) (by decide))
    · exact hstatus (Status.not_forges_of_oneLine (by decide) rfl (by decide) (by decide))

/-- The annotation lines among the lines of a review. -/
theorem filterMap_line?_ofWritten (ls : List Written) :
    (ls.map Utterance.ofWritten).filterMap Utterance.line? = Review.annotated ls := by
  induction ls with
  | nil => rfl
  | cons w ls ih =>
    obtain ⟨channel, text⟩ := w
    unfold Review.annotated at ih ⊢
    rw [List.map_cons, List.filterMap_cons, ih]
    cases channel <;> rfl

/-- **Of the lines of a review** only annotation lines can read as commands that they are not. -/
theorem onlyCommands_ofWritten_iff (ls : List Written) :
    OnlyCommands d (ls.map .ofWritten) ↔
      ∀ text ∈ Review.annotated ls,
        ¬ ∃ row ∈ (Utterance.line text).rows d, ReadsAsCommand row := by
  have hmem : ∀ text, Utterance.line text ∈ ls.map .ofWritten ↔ text ∈ Review.annotated ls := by
    intro text
    rw [Utterance.line_mem_iff, filterMap_line?_ofWritten]
  constructor
  · rintro honly text htext ⟨row, hrow, hreads⟩
    exact honly _ ((hmem text).mpr htext) rfl row hrow hreads
  · intro hnone u hu hcommand row hrow hreads
    obtain ⟨⟨channel, text⟩, -, rfl⟩ := List.mem_map.mp hu
    cases channel with
    | primary => exact hnone text ((hmem text).mp hu) ⟨row, hrow, hreads⟩
    | log => cases hcommand
    | failure => cases hcommand

/-- **The annotations of a file with news** read as no commands exactly when neither its name nor a
text of a finding forges one. -/
theorem annotations_forge_iff (hd : Status.isColoured d = false) (s : Settings)
    (e : String × List Finding) :
    (∀ text ∈ Review.annotations s e,
        ¬ ∃ row ∈ (Utterance.line text).rows d, ReadsAsCommand row) ↔
      ¬ Forges (shownName s.root e.1).toList ∧
        ∀ f ∈ e.2, ¬ Forges f.message.toList ∧ ¬ Forges f.source.toList := by
  have hmarker : (∃ row ∈ (Utterance.line (fileMarker s.root e.1)).rows d, ReadsAsCommand row) ↔
      Forges (shownName s.root e.1).toList := by
    rw [Utterance.exists_row_line_iff hd (exists_toList_fileMarker s.root e.1), forges_fileMarker]
  have hfinding : ∀ f, (∃ row ∈ (Utterance.line (errorLine f)).rows d, ReadsAsCommand row) ↔
      Forges f.message.toList ∨ Forges f.source.toList := by
    intro f
    obtain ⟨rest, hrest⟩ := exists_toList_errorLine f
    rw [Utterance.exists_row_line_iff hd ⟨_, hrest⟩, forges_errorLine]
  unfold Review.annotations
  rw [List.forall_mem_cons, hmarker, List.forall_mem_map]
  simp only [hfinding, not_or]

/-! ## What a run says -/

/-- **The news of a run** that begins. -/
def news (h : Host) (a : Assignment) : Table String (List Finding) :=
  Review.news a.settings (.ofRunner h.runner a.settings a.files)

/-- The lines of a review are said, and the closing words, unless a fault leaves the program. -/
theorem exists_said_begun (ha : a.files ≠ []) (calls : List Call) :
    ∃ closed, (begun h calls a).said = (review h a).1.lines.map .ofWritten ++ closed ∧
      (closed = closing (review h a).1.decision ∨ closed = []) := by
  rw [begun, if_neg ha]
  obtain ⟨t, _ | f⟩ := review h a
  · exact ⟨_, rfl, .inl rfl⟩
  · refine ⟨[], ?_, .inr rfl⟩
    show (left _ _ f).said = _
    rw [List.append_nil]
    unfold left
    split <;> rfl

/-- Without files to lint there is no news. -/
theorem news_of_no_files (ha : a.files = []) : news h a = [] := by
  have hnotice : (Totals.notice? {} a.settings.strict).isSome = true := by
    cases a.settings.strict <;> rfl
  have hfiles : Review.judgedFiles a.settings (.ofRunner h.runner a.settings []) = [] := by
    show (if (Totals.notice? {} a.settings.strict).isSome then [] else _) = _
    rw [if_pos hnotice]
  rw [news, ha, Review.news, Review.goneThrough, hfiles]
  rfl

/-- The closing words are no annotation lines. -/
theorem filterMap_line?_closing (decision : Decision) :
    (closing decision).filterMap Utterance.line? = [] := by
  rw [List.filterMap_eq_nil_iff]
  intro u hu
  rw [closing, List.mem_append, List.mem_singleton] at hu
  rcases hu with hu | rfl
  · obtain ⟨n, -, rfl⟩ := Option.map_eq_some_iff.mp (Option.mem_toList.mp hu)
    rfl
  · split <;> rfl

/-! ## The two ends of a run -/

/-- A run that could not begin annotates nothing. -/
theorem filterMap_line?_notBegun (calls : List Call) (f : Fault) :
    (notBegun calls f).said.filterMap Utterance.line? = [] := by
  unfold notBegun
  split
  · rfl
  · unfold left
    split <;> rfl

/-- **A run that could not begin** says the fault, which may forge a command, if it announces it. -/
theorem onlyCommands_notBegun_iff (hd : Status.isColoured d = false) (calls : List Call)
    (f : Fault) :
    OnlyCommands d (notBegun calls f).said ↔
      (f.isAnnounced = true → ¬ Status.Forges d .fail f.text) := by
  rw [← Utterance.exists_row_status_iff hd]
  by_cases hf : f.isAnnounced = true
  · rw [notBegun, if_pos hf]
    constructor
    · rintro honly - ⟨row, hrow, hreads⟩
      exact honly (.status .fail f.text) (by simp) rfl row hrow hreads
    · intro hnone u hu hcommand row hrow hreads
      simp only [List.mem_cons, List.not_mem_nil, or_false] at hu
      rcases hu with rfl | rfl | rfl
      · cases hcommand
      · cases hcommand
      · exact hnone hf ⟨row, hrow, hreads⟩
  · have hsaid : (notBegun calls f).said = [] := by
      rw [notBegun, if_neg hf]
      unfold left
      split <;> rfl
    rw [hsaid]
    exact iff_of_true (List.forall_mem_nil _) fun h => absurd h hf

/-- **A run that begins** annotates the news of its review. -/
theorem filterMap_line?_begun (calls : List Call) (a : Assignment) :
    (begun h calls a).said.filterMap Utterance.line?
      = (news h a).flatMap (Review.annotations a.settings) := by
  by_cases ha : a.files = []
  · rw [news_of_no_files ha, begun, if_pos ha]
    rfl
  · obtain ⟨closed, hsaid, hclosed⟩ := exists_said_begun (h := h) ha calls
    have hnone : closed.filterMap Utterance.line? = [] := by
      rcases hclosed with rfl | rfl
      · exact filterMap_line?_closing _
      · rfl
    rw [hsaid, List.filterMap_append, hnone, List.append_nil, filterMap_line?_ofWritten]
    exact Review.annotated_run a.settings _

/-- **A run that begins** has a line that passes for a command exactly when its news forge one. -/
theorem onlyCommands_begun_iff (hd : Status.isColoured d = false) (calls : List Call)
    (a : Assignment) :
    OnlyCommands d (begun h calls a).said ↔
      ∀ e ∈ news h a, ¬ Forges (shownName a.settings.root e.1).toList ∧
        ∀ f ∈ e.2, ¬ Forges f.message.toList ∧ ¬ Forges f.source.toList := by
  by_cases ha : a.files = []
  · have hstatus : ¬ Status.Forges d .ok "No files to lint" :=
      Status.not_forges_of_oneLine (by decide) rfl (by decide) (by decide)
    rw [news_of_no_files ha, begun, if_pos ha]
    refine iff_of_true ?_ (List.forall_mem_nil _)
    intro u hu _ row hrow hreads
    obtain rfl := List.mem_singleton.mp hu
    exact hstatus ((Utterance.exists_row_status_iff hd _ _).mp ⟨row, hrow, hreads⟩)
  · obtain ⟨closed, hsaid, hclosed⟩ := exists_said_begun (h := h) ha calls
    have hsafe : OnlyCommands d closed := by
      rcases hclosed with rfl | rfl
      · exact onlyCommands_closing hd _
      · exact List.forall_mem_nil _
    have hannotated : Review.annotated (review h a).1.lines
        = (news h a).flatMap (Review.annotations a.settings) := Review.annotated_run a.settings _
    rw [hsaid, onlyCommands_append, and_iff_left hsafe, onlyCommands_ofWritten_iff, hannotated]
    simp only [List.mem_flatMap, forall_exists_index, and_imp, ← annotations_forge_iff hd]
    exact ⟨fun hall e he text htext => hall text e he htext,
      fun hall text e he htext => hall e he text htext⟩

/-! ## All lines of the output -/

/-- A run shows its status lines without colours. -/
theorem isColoured_display (i : Invocation) : Status.isColoured (display i) = false := rfl

/-- **Which lines of the output read as commands.** Every physical line belongs to something that
the run says, and every line of a message for the log or of an error reads as a command. If the run
cannot begin, no other line does, unless the fault that it announces forges one. If it begins, its
annotation lines are those of the news of the review: the marker of each file, and below it one
entry for each finding that the change brought in. No line that is not a command reads as one
exactly when neither the name of such a file nor the message or the source of such a finding forges
a command. And a finding takes as many physical lines as there are line ends in its message and its
source, and one more, which is the first and begins as an annotation. -/
theorem onlyCommands_run_iff (h : Host) (i : Invocation) :
    Text.rows (output (display i) (run h i).said).toList
        = (run h i).said.flatMap (Utterance.rows (display i)) ++ [[]] ∧
    (∀ u ∈ (run h i).said, u.isCommand = true →
      ∀ row ∈ u.rows (display i), ReadsAsCommand row) ∧
    (∀ f, (begin h i).result = .error f →
      (run h i).said.filterMap Utterance.line? = [] ∧
      (OnlyCommands (display i) (run h i).said ↔
        (f.isAnnounced = true → ¬ Status.Forges (display i) .fail f.text))) ∧
    ∀ a, (begin h i).result = .ok a →
      (run h i).said.filterMap Utterance.line?
        = (news h a).flatMap (Review.annotations a.settings) ∧
      (OnlyCommands (display i) (run h i).said ↔
        ∀ e ∈ news h a, ¬ Forges (shownName a.settings.root e.1).toList ∧
          ∀ f ∈ e.2, ¬ Forges f.message.toList ∧ ¬ Forges f.source.toList) ∧
      ∀ e ∈ news h a, ∀ f ∈ e.2, ∃ first rest,
        (Utterance.line (errorLine f)).rows (display i) = first :: rest ∧
          "<error ".toList <+: first ∧
          rest.length = lineEnds f.message.toList + lineEnds f.source.toList := by
  have hd := isColoured_display i
  refine ⟨rows_output hd _, fun u _ hu => Utterance.readsAsCommand_of_isCommand hd hu, ?_, ?_⟩
  · intro f hf
    have hsaid : (run h i).said = (notBegun (begin h i).calls f).said := by rw [run, hf]
    rw [hsaid]
    exact ⟨filterMap_line?_notBegun _ f, onlyCommands_notBegun_iff hd _ f⟩
  · intro a ha
    have hsaid : (run h i).said = (begun h (begin h i).calls a).said := by rw [run, ha]
    rw [hsaid]
    exact ⟨filterMap_line?_begun _ a, onlyCommands_begun_iff hd _ a,
      fun e _ f _ => exists_rows_errorLine hd f⟩

/-- The message of a finding that passes for a command. -/
def forgingMessage : String := "bad\n::error::forged"

/-- A report with such a finding, as it is printed. -/
def forgingReport : String :=
  "\x7b\"totals\":\x7b\"errors\":1\x7d,\"files\":\x7b\"a.php\":\x7b\"messages\":[\x7b"
    ++ "\"message\":\"bad\\n::error::forged\",\"source\":\"S\",\"type\":\"ERROR\","
    ++ "\"line\":1,\"column\":1\x7d]\x7d\x7d\x7d"

/-- A host whose linter prints the report, and on which no line has a known revision. -/
def forgingHost : Host where
  executables := [("phpcs", "/bin/phpcs"), ("git", "/bin/git")]
  answer
    | "/bin/git" :: _ => .finished 0 [] []
    | _ => .finished 2 forgingReport.toUTF8.toList []

/-- What a run on one file makes of its invocation. -/
def oneFileAssignment : Assignment where
  settings := oneFileSettings
  files := ["a.php"]

/-- The finding that the run reports. -/
def forgingFinding : Finding := ⟨"a.php", 1, 1, .error, forgingMessage, "S"⟩

theorem begin_forgingHost : (begin forgingHost oneFile).result = .ok oneFileAssignment := by
  decide +kernel

theorem news_forgingHost : news forgingHost oneFileAssignment = [("a.php", [forgingFinding])] := by
  decide +kernel

/-- **A finding writes a command of its own**: behind the line end in its message the output goes on
with an error that no tool announced. -/
theorem onlyCommands_forged :
    ∃ u ∈ (run forgingHost oneFile).said, u.isCommand = false ∧
      "::error::forged\" source=\"S\"/>".toList ∈ u.rows (display oneFile) ∧
      ReadsAsCommand "::error::forged\" source=\"S\"/>".toList := by
  refine ⟨.line (errorLine forgingFinding), ?_, rfl, by decide +kernel, by decide⟩
  have hsaid : (run forgingHost oneFile).said
      = (begun forgingHost (begin forgingHost oneFile).calls oneFileAssignment).said := by
    rw [run, begin_forgingHost]
  rw [Utterance.line_mem_iff, hsaid, filterMap_line?_begun, news_forgingHost]
  exact List.mem_flatMap.mpr ⟨_, List.mem_singleton_self _, .tail _ (.head _)⟩

/-- The finding is the only news of the run, and its message forges a command. -/
theorem onlyCommands_run_iff_forging :
    (begin forgingHost oneFile).result = .ok oneFileAssignment ∧
      news forgingHost oneFileAssignment = [("a.php", [forgingFinding])] ∧
      ¬ OnlyCommands (display oneFile) (run forgingHost oneFile).said := by
  refine ⟨begin_forgingHost, news_forgingHost, fun honly => ?_⟩
  have hall := ((onlyCommands_run_iff forgingHost oneFile).2.2.2 _ begin_forgingHost).2.1.mp honly
  have hmem : ("a.php", [forgingFinding]) ∈ news forgingHost oneFileAssignment := by
    rw [news_forgingHost]
    exact List.mem_singleton_self _
  have hmessage := ((hall _ hmem).2 _ (List.mem_singleton_self _)).1
  exact hmessage ⟨"bad".toList, '\n', "::error::forged".toList, by decide, by decide, by decide⟩

end Program

end LintGate
