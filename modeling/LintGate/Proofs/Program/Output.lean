import LintGate.Program
import LintGate.Proofs.Annotations.Format
import LintGate.Proofs.Text.Rows

/-!
# The physical lines of the output

Everything the program says ends with a line feed, so every physical line of its output belongs to
one utterance (`Program.rows_output`). What the lines of an utterance are depends on its kind. A
message for the log or an error has its line ends escaped: each of its lines is a command. A line
that may become an annotation is written as it is, and so is a status line, but for a few control
characters.

A written text therefore *forges* a command when something in it that follows a line end reads as
one (`Text.Forges`). Quotation marks and line ends are written for themselves, so a text that is put
together from parts between quotation marks forges a command exactly when one of the parts does
(`Text.forges_append_cons`).
-/

namespace LintGate

namespace Text

/-! ## Texts that read as commands -/

/-- **A line reads as a workflow command.** -/
def ReadsAsCommand (s : List Char) : Prop := [':', ':'] <+: s

instance (s : List Char) : Decidable (ReadsAsCommand s) :=
  inferInstanceAs (Decidable ([':', ':'] <+: s))

/-- **A text forges a command**: what follows one of its line ends is written so that it reads as a
command. -/
def Forges (s : List Char) : Prop :=
  ∃ a c b, s = a ++ c :: b ∧ isLineEnd c = true ∧ ReadsAsCommand (withoutSequences b)

/-- Whether a text reads as a command is settled before any character but a colon. -/
theorem readsAsCommand_append_cons {s : List Char} {c : Char} (hc : c ≠ ':') (t : List Char) :
    ReadsAsCommand (s ++ c :: t) ↔ ReadsAsCommand s := by
  unfold ReadsAsCommand
  rcases s with _ | ⟨a, _ | ⟨b, s⟩⟩
  · simp [Ne.symm hc]
  · simp [Ne.symm hc]
  · simp

theorem ne_colon_of_isLineEnd {c : Char} (h : isLineEnd c = true) : c ≠ ':' := by
  rintro rfl
  cases h

/-- Text on one line forges nothing. -/
theorem OneLine.not_forges {s : List Char} (h : OneLine s) : ¬ Forges s := by
  rintro ⟨a, c, b, rfl, hc, -⟩
  have := h c (by simp)
  simp [hc] at this

/-- **A text in two parts** forges a command when one of the parts does, or when they are two lines
and the second one reads as a command. -/
theorem forges_append_cons {s t : List Char} {c : Char} (hsolid : Solid c) (hc : c ≠ ':') :
    Forges (s ++ c :: t) ↔
      Forges s ∨ (isLineEnd c = true ∧ ReadsAsCommand (withoutSequences t)) ∨ Forges t := by
  constructor
  · rintro ⟨a, e, b, h, he, hb⟩
    rcases List.append_eq_append_iff.mp h with ⟨k, rfl, hk⟩ | ⟨k, rfl, hk⟩
    · -- the line end stands at the cut or behind it
      cases k with
      | nil =>
        obtain ⟨rfl, rfl⟩ := List.cons.inj hk
        exact .inr (.inl ⟨he, hb⟩)
      | cons d k =>
        obtain ⟨rfl, rfl⟩ := List.cons.inj hk
        exact .inr (.inr ⟨k, e, b, rfl, he, hb⟩)
    · cases k with
      | nil =>
        obtain ⟨rfl, rfl⟩ := List.cons.inj hk
        exact .inr (.inl ⟨he, hb⟩)
      | cons d k =>
        -- it stands before the cut, where only what comes before the cut is read
        obtain ⟨rfl, hrest⟩ := List.cons.inj hk
        have hwritten : withoutSequences b = withoutSequences k ++ c :: withoutSequences t := by
          rw [hrest]
          exact withoutSequences_append_cons k hsolid t
        rw [hwritten, readsAsCommand_append_cons hc] at hb
        exact .inl ⟨a, e, k, rfl, he, hb⟩
  · rintro (⟨a, e, b, rfl, he, hb⟩ | ⟨he, ht⟩ | ⟨a, e, b, rfl, he, hb⟩)
    · refine ⟨a, e, b ++ c :: t, by simp, he, ?_⟩
      rwa [withoutSequences_append_cons b hsolid, readsAsCommand_append_cons hc]
    · exact ⟨s, c, t, rfl, he, ht⟩
    · exact ⟨s ++ c :: a, e, b, by simp, he, hb⟩

/-- Parts between which a quotation mark stands forge commands each for itself. -/
theorem forges_joined (a b : String) :
    Forges (joined a b).toList ↔ Forges a.toList ∨ Forges b.toList := by
  rw [toList_joined, forges_append_cons solid_quote (by decide)]
  simp [isLineEnd]

/-- Parts between which a quotation mark stands are on one line when each of them is. -/
theorem oneLine_joined (a b : String) :
    OneLine (joined a b).toList ↔ OneLine a.toList ∧ OneLine b.toList := by
  have hquote : OneLine ('"' :: b.toList) ↔ OneLine b.toList := by simp [OneLine, isLineEnd]
  rw [toList_joined, oneLine_append, hquote]

/-- The quotation mark between two parts is no line end. -/
theorem lineEnds_joined (a b : String) :
    lineEnds (joined a b).toList = lineEnds a.toList + lineEnds b.toList := by
  rw [toList_joined, lineEnds, List.countP_append, List.countP_cons_of_neg (by decide)]
  rfl

/-- **A written text has a line that reads as a command** when it begins as one or forges one. -/
theorem exists_row_iff (s : List Char) :
    (∃ row ∈ rows (withoutSequences s), ReadsAsCommand row) ↔
      ReadsAsCommand (withoutSequences s) ∨ Forges s := by
  induction s using rows_induction with
  | one s h => simp [rows_of_oneLine h.withoutSequences, h.not_forges]
  | cut s c t hc hs ht =>
    have hsolid := solid_of_isLineEnd hc
    have hcolon := ne_colon_of_isLineEnd hc
    have hsplit : ∀ row, row ∈ rows (withoutSequences s) ++ rows (withoutSequences t) ↔
        row ∈ rows (withoutSequences s) ∨ row ∈ rows (withoutSequences t) := fun _ =>
      List.mem_append
    rw [withoutSequences_append_cons s hsolid, rows_append_cons _ hc,
      readsAsCommand_append_cons hcolon, forges_append_cons hsolid hcolon]
    simp only [hsplit, or_and_right, exists_or, hs, ht, hc, true_and, or_assoc]

end Text

open Text

/-! ## What is written -/

namespace Workflow

theorem toList_written (line : String) :
    (written line).toList = withoutSequences line.toList ++ ['\n'] := by
  simp [written]

/-- The data of a command is on one line. -/
theorem oneLine_escapeData (s : String) : OneLine (escapeData s).toList := by
  obtain ⟨hfeed, hreturn⟩ := not_mem_escapeData s
  intro c hc
  have hf : c ≠ '\n' := fun h => hfeed (h ▸ hc)
  have hr : c ≠ '\r' := fun h => hreturn (h ▸ hc)
  simp [isLineEnd, hf, hr]

/-- The command that announces an error. -/
def errorCommand (message : String) : String := "::error::" ++ escapeData message

theorem oneLine_debugCommand (line : String) : OneLine (debugCommand line).toList := by
  rw [debugCommand, String.toList_append, oneLine_append]
  exact ⟨by decide, oneLine_escapeData line⟩

theorem oneLine_errorCommand (message : String) : OneLine (errorCommand message).toList := by
  rw [errorCommand, String.toList_append, oneLine_append]
  exact ⟨by decide, oneLine_escapeData message⟩

end Workflow

/-- What begins with two colons is written so. -/
theorem Text.readsAsCommand_withoutSequences (s : List Char) :
    ReadsAsCommand (withoutSequences (':' :: ':' :: s)) := by
  have hne : ':' ≠ escapeChar := by decide
  show ReadsAsCommand (dropSequences 0 (':' :: ':' :: s))
  rw [dropSequences_zero_of_ne hne, dropSequences_zero_of_ne hne]
  exact ⟨_, rfl⟩

/-- A number is on one line. -/
theorem Text.oneLine_toString (n : Nat) : OneLine (toString n).toList := by
  intro c hc
  have hdigit : c.isDigit = true := isDigit_of_mem_toString hc
  have hf : c ≠ '\n' := by rintro rfl; revert hdigit; decide
  have hr : c ≠ '\r' := by rintro rfl; revert hdigit; decide
  simp [isLineEnd, hf, hr]

/-! ## Status lines -/

namespace Status

/-- The text of a status line without the characters that it never has. -/
def kept (d : Display) (tone : Tone) (message : String) : List Char :=
  (symbolIf d.symbols tone.symbol ++ message).toList.filter (!isDropped ·)

/-- **A status line forges a command**: one of its lines reads as one. -/
def Forges (d : Display) (tone : Tone) (message : String) : Prop :=
  ∃ line ∈ splitAt '\n' (kept d tone message), ReadsAsCommand line

/-- **A text is cut at a mark**, and the rest is cut further; without a mark it stays whole. -/
theorem splitAt_cases (mark : Char) (s : List Char) :
    (mark ∉ s ∧ splitAt mark s = [s]) ∨
      ∃ first rest, s = first ++ mark :: rest ∧
        splitAt mark s = first :: splitAt mark rest := by
  induction s with
  | nil => exact .inl ⟨List.not_mem_nil, rfl⟩
  | cons c s ih =>
    by_cases hc : c = mark
    · exact .inr ⟨[], s, by rw [hc, List.nil_append], by rw [splitAt, if_pos hc]⟩
    · rcases ih with ⟨hs, hwhole⟩ | ⟨first, rest, rfl, hcut⟩
      · refine .inl ⟨by simp [Ne.symm hc, hs], ?_⟩
        rw [splitAt, if_neg hc, hwhole]
      · refine .inr ⟨c :: first, rest, rfl, ?_⟩
        rw [splitAt, if_neg hc, hcut]

theorem splitAt_ne_nil (mark : Char) (s : List Char) : splitAt mark s ≠ [] := by
  rcases splitAt_cases mark s with ⟨-, h⟩ | ⟨first, rest, -, h⟩
  · rw [h]
    exact List.cons_ne_nil _ _
  · rw [h]
    exact List.cons_ne_nil _ _

/-- A piece has characters of the text, and no mark. -/
theorem mem_of_mem_splitAt {mark c : Char} {s piece : List Char} (hp : piece ∈ splitAt mark s)
    (hc : c ∈ piece) : c ∈ s ∧ c ≠ mark := by
  induction s generalizing piece with
  | nil =>
    obtain rfl : piece = [] := by simpa [splitAt] using hp
    cases hc
  | cons a s ih =>
    by_cases ha : a = mark
    · rw [splitAt, if_pos ha, List.mem_cons] at hp
      rcases hp with rfl | hp
      · cases hc
      · exact (ih hp hc).imp (List.mem_cons_of_mem a) id
    · obtain ⟨q, qs, hq⟩ := List.exists_cons_of_ne_nil (splitAt_ne_nil mark s)
      rw [splitAt, if_neg ha, hq, List.mem_cons] at hp
      rcases hp with rfl | hp
      · rcases List.mem_cons.mp hc with rfl | hc
        · exact ⟨List.mem_cons_self, ha⟩
        · exact (ih (hq ▸ List.mem_cons_self) hc).imp (List.mem_cons_of_mem a) id
      · exact (ih (hq ▸ List.mem_cons_of_mem q hp) hc).imp (List.mem_cons_of_mem a) id

/-- Between tab stops there are the characters of the pieces, and blanks. -/
theorem mem_of_mem_atTabStops {c : Char} {pieces : List (List Char)}
    (h : c ∈ (atTabStops pieces).flatMap id) : (∃ p ∈ pieces, c ∈ p) ∨ c = ' ' := by
  induction pieces with
  | nil => cases h
  | cons p pieces ih =>
    cases pieces with
    | nil => exact .inl ⟨p, List.mem_cons_self, by simpa [atTabStops] using h⟩
    | cons q pieces =>
      have h : c ∈ toTabStop p ++ (atTabStops (q :: pieces)).flatMap id := h
      rcases List.mem_append.mp h with hp | hrest
      · have hp : (c ∈ p ∨ c = ' ') ∨ c = ' ' := by
          simp only [toTabStop, List.mem_append, List.mem_singleton] at hp
          exact hp.imp id fun hr => (List.mem_replicate.mp hr).2
        rcases hp with (hp | hp) | hp
        · exact .inl ⟨p, List.mem_cons_self, hp⟩
        · exact .inr hp
        · exact .inr hp
      · refine (ih hrest).imp ?_ id
        rintro ⟨r, hr, hc⟩
        exact ⟨r, List.mem_cons_of_mem p hr, hc⟩

/-- A line stays one when its tabs become blanks. -/
theorem oneLine_shownLine {line : List Char} (h : OneLine line) :
    OneLine (shownLine none line) := by
  intro c hc
  rcases mem_of_mem_atTabStops hc with ⟨p, hp, hmem⟩ | rfl
  · exact h c (mem_of_mem_splitAt hp hmem).1
  · rfl

/-- **Tabs do not matter** for whether a line reads as a command. -/
theorem readsAsCommand_shownLine (line : List Char) :
    ReadsAsCommand (shownLine none line) ↔ ReadsAsCommand line := by
  rcases splitAt_cases '\t' line with ⟨-, hwhole⟩ | ⟨first, rest, rfl, hcut⟩
  · have hshown : shownLine none line = line := by simp [shownLine, hwhole, atTabStops]
    rw [hshown]
  · obtain ⟨q, qs, hq⟩ := List.exists_cons_of_ne_nil (splitAt_ne_nil '\t' rest)
    have hshown : shownLine none (first ++ '\t' :: rest)
        = toTabStop first ++ (atTabStops (splitAt '\t' rest)).flatMap id := by
      rw [shownLine, hcut, hq]
      rfl
    rw [hshown, toTabStop, List.append_assoc, List.append_assoc, List.singleton_append,
      readsAsCommand_append_cons (by decide), readsAsCommand_append_cons (by decide)]

/-- No line of a status line is broken. -/
theorem oneLine_of_mem_splitAt {d : Display} {tone : Tone} {message : String} {line : List Char}
    (h : line ∈ splitAt '\n' (kept d tone message)) : OneLine line := by
  intro c hc
  obtain ⟨hmem, hfeed⟩ := mem_of_mem_splitAt h hc
  have hdropped : isDropped c = false := by
    have := (List.mem_filter.mp hmem).2
    simpa using this
  have hreturn : c ≠ '\r' := by
    rintro rfl
    cases hdropped
  simp [isLineEnd, hfeed, hreturn]

/-- **A message that opens with a word** forges no command when it is on one line. -/
theorem not_forges_of_oneLine {d : Display} {tone : Tone} {message : String}
    (hline : OneLine message.toList) {c : Char} {rest : List Char} (hc : message.toList = c :: rest)
    (hcolon : c ≠ ':') (hkept : isDropped c = false) : ¬ Forges d tone message := by
  have hfeed : '\n' ∉ kept d tone message := by
    intro h
    have hmem := (List.mem_filter.mp h).1
    rw [String.toList_append, List.mem_append] at hmem
    rcases hmem with hmem | hmem
    · unfold symbolIf at hmem
      split at hmem <;> cases tone <;> revert hmem <;> decide
    · exact Bool.noConfusion (hline _ hmem)
  rcases splitAt_cases '\n' (kept d tone message) with ⟨-, hwhole⟩ | ⟨first, rest, hsplit, -⟩
  · rintro ⟨line, hmem, hreads⟩
    rw [hwhole, List.mem_singleton] at hmem
    subst hmem
    obtain ⟨b, more, htext, hne, hb⟩ : ∃ b more,
        (symbolIf d.symbols tone.symbol ++ message).toList = b :: more ∧
          b ≠ ':' ∧ isDropped b = false := by
      unfold symbolIf
      cases d.symbols with
      | true => cases tone <;> exact ⟨_, _, String.toList_append, by decide, by decide⟩
      | false => exact ⟨c, rest, by simp [hc], hcolon, hkept⟩
    have hkept : kept d tone message = b :: more.filter (!isDropped ·) := by
      rw [kept, htext, List.filter_cons_of_pos (by simp [hb])]
    rw [hkept] at hreads
    exact absurd (List.cons_prefix_cons.mp hreads).1.symm hne
  · exact absurd (hsplit ▸ List.mem_append_right _ List.mem_cons_self) hfeed

end Status

/-! ## Utterances -/

namespace Utterance

/-- **The physical lines of an utterance.** -/
def rows (d : Display) (u : Utterance) : List (List Char) := (Text.rows (u.text d).toList).dropLast

/-- **A command**: a message for the log, or an error. -/
def isCommand : Utterance → Bool
  | debug _ | error _ => true
  | line _ | status _ _ => false

/-- The lines of a message for the log, of which there is one at least. -/
def logLines (message : String) : List String :=
  match Text.lines message with
  | [] => [""]
  | ls => ls

/-- **The lines that an utterance is made of.** -/
def lines (d : Display) : Utterance → List (List Char)
  | debug message =>
    (logLines message).map fun l => withoutSequences (Workflow.debugCommand l).toList
  | error message => [withoutSequences (Workflow.errorCommand message).toList]
  | line text => (Text.rows text.toList).map withoutSequences
  | status tone message =>
    (Status.splitAt '\n' (Status.kept d tone message)).map (Status.shownLine none)

/-- Lines that are written one after the other are the lines that are read. -/
theorem rows_flatMap_lineFeed {ls : List (List Char)} (h : ∀ l ∈ ls, OneLine l) :
    Text.rows (ls.flatMap fun l => l ++ ['\n']) = ls ++ [[]] := by
  induction ls with
  | nil => rfl
  | cons l ls ih =>
    rw [List.flatMap_cons, List.append_assoc, List.singleton_append,
      rows_append_cons l rfl, rows_of_oneLine (h l List.mem_cons_self),
      ih fun k hk => h k (List.mem_cons_of_mem l hk)]
    rfl

variable {d : Display}

/-- **An utterance ends with a line feed**, and its lines are those it is made of. -/
theorem rows_text (hd : Status.isColoured d = false) (u : Utterance) :
    Text.rows (u.text d).toList = u.lines d ++ [[]] := by
  cases u with
  | debug message =>
    have hone : ∀ l ∈ (logLines message).map
        (fun l => withoutSequences (Workflow.debugCommand l).toList), OneLine l := by
      intro l hl
      obtain ⟨k, -, rfl⟩ := List.mem_map.mp hl
      exact (Workflow.oneLine_debugCommand k).withoutSequences
    have htext : (Workflow.debugText message).toList
        = ((logLines message).map
            fun l => withoutSequences (Workflow.debugCommand l).toList).flatMap
              fun l => l ++ ['\n'] := by
      unfold Workflow.debugText
      show (String.join ((logLines message).map _)).toList = _
      rw [String.toList_join, List.flatMap_map, List.flatMap_map]
      exact congrArg (List.flatMap · _) (funext fun l => Workflow.toList_written _)
    show Text.rows (Workflow.debugText message).toList = _
    rw [htext, rows_flatMap_lineFeed hone]
    rfl
  | error message =>
    have hone := (Workflow.oneLine_errorCommand message).withoutSequences
    show Text.rows (Workflow.written (Workflow.errorCommand message)).toList = _
    rw [Workflow.toList_written, rows_append_cons _ rfl, rows_of_oneLine hone]
    rfl
  | line text =>
    show Text.rows (Workflow.written text).toList = _
    rw [Workflow.toList_written, rows_append_cons _ rfl, rows_withoutSequences]
    rfl
  | status tone message =>
    have hone : ∀ l ∈ lines d (status tone message), OneLine l := by
      intro l hl
      obtain ⟨k, hk, rfl⟩ := List.mem_map.mp hl
      exact Status.oneLine_shownLine (Status.oneLine_of_mem_splitAt hk)
    have htext : (Status.shown d tone message).toList
        = (lines d (status tone message)).flatMap fun l => l ++ ['\n'] := by
      unfold Status.shown
      rw [hd, String.toList_ofList]
      show _ = ((Status.splitAt '\n' (Status.kept d tone message)).map _).flatMap _
      rw [List.flatMap_map]
      rfl
    show Text.rows (Status.shown d tone message).toList = _
    rw [htext, rows_flatMap_lineFeed hone]

theorem rows_eq (hd : Status.isColoured d = false) (u : Utterance) : u.rows d = u.lines d := by
  rw [rows, rows_text hd, List.dropLast_concat]

/-- **Every line of a command reads as one.** -/
theorem readsAsCommand_of_isCommand (hd : Status.isColoured d = false) {u : Utterance}
    (hu : u.isCommand = true) : ∀ row ∈ u.rows d, ReadsAsCommand row := by
  intro row hrow
  rw [rows_eq hd] at hrow
  cases u with
  | debug message =>
    obtain ⟨l, -, rfl⟩ := List.mem_map.mp hrow
    have hcommand : (Workflow.debugCommand l).toList
        = ':' :: ':' :: ("debug::" ++ Workflow.escapeData l).toList := by
      simp [Workflow.debugCommand]
    rw [hcommand]
    exact readsAsCommand_withoutSequences _
  | error message =>
    obtain rfl := List.mem_singleton.mp hrow
    have hcommand : (Workflow.errorCommand message).toList
        = ':' :: ':' :: ("error::" ++ Workflow.escapeData message).toList := by
      simp [Workflow.errorCommand]
    rw [hcommand]
    exact readsAsCommand_withoutSequences _
  | line text => cases hu
  | status tone message => cases hu

/-- **A status line reads as a command** exactly when it forges one. -/
theorem exists_row_status_iff (hd : Status.isColoured d = false) (tone : Tone) (message : String) :
    (∃ row ∈ (status tone message).rows d, ReadsAsCommand row) ↔ Status.Forges d tone message := by
  rw [rows_eq hd]
  constructor
  · rintro ⟨row, hrow, hreads⟩
    obtain ⟨l, hl, rfl⟩ := List.mem_map.mp hrow
    exact ⟨l, hl, (Status.readsAsCommand_shownLine l).mp hreads⟩
  · rintro ⟨l, hl, hreads⟩
    exact ⟨_, List.mem_map_of_mem hl, (Status.readsAsCommand_shownLine l).mpr hreads⟩

/-- **A line that begins with a bracket** reads as a command exactly when it forges one. -/
theorem exists_row_line_iff (hd : Status.isColoured d = false) {text : String}
    (ht : ∃ rest, text.toList = '<' :: rest) :
    (∃ row ∈ (line text).rows d, ReadsAsCommand row) ↔ Forges text.toList := by
  obtain ⟨rest, ht⟩ := ht
  have hrows : (line text).rows d = Text.rows (withoutSequences text.toList) := by
    rw [rows_eq hd, rows_withoutSequences]
    rfl
  have hwritten : withoutSequences ('<' :: rest) = '<' :: dropSequences 0 rest :=
    dropSequences_zero_of_ne (by decide) rest
  have hreads : ¬ ReadsAsCommand (withoutSequences ('<' :: rest)) := by
    rw [hwritten]
    intro h
    exact absurd (List.cons_prefix_cons.mp h).1 (by decide)
  rw [hrows, exists_row_iff, ht, or_iff_right hreads]

end Utterance

/-- **Every physical line of the output belongs to an utterance.** -/
theorem Program.rows_output {d : Display} (hd : Status.isColoured d = false)
    (said : List Utterance) :
    Text.rows (output d said).toList = said.flatMap (Utterance.rows d) ++ [[]] := by
  induction said with
  | nil => rfl
  | cons u said ih =>
    have houtput : (output d (u :: said)).toList = (u.text d).toList ++ (output d said).toList := by
      simp [output]
    rw [houtput, rows_append_of_rows_eq (Utterance.rows_text hd u), ih, List.flatMap_cons,
      Utterance.rows_eq hd, List.append_assoc]

/-! ## Annotation lines -/

/-- A marker begins with a bracket. -/
theorem exists_toList_fileMarker (root : Path) (file : String) :
    ∃ rest, (fileMarker root file).toList = '<' :: rest := by
  have hopen : "<file name=".toList = '<' :: "file name=".toList := by decide
  rw [fileMarker_eq_joined, toList_joined, hopen, List.cons_append]
  exact ⟨_, rfl⟩

/-- **The marker of a file forges a command** exactly when the name that it shows does. -/
theorem forges_fileMarker (root : Path) (file : String) :
    Forges (fileMarker root file).toList ↔ Forges (shownName root file).toList := by
  have hopen : ¬ Forges "<file name=".toList := OneLine.not_forges (by decide)
  have hclose : ¬ Forges ">".toList := OneLine.not_forges (by decide)
  rw [fileMarker_eq_joined, forges_joined, forges_joined, or_iff_right hopen, or_iff_left hclose]

theorem oneLine_errorLineHead (f : Finding) : OneLine (errorLineHead f).toList := by
  have hseverity : OneLine f.severity.name.toList := by cases f.severity <;> decide
  rw [errorLineHead_eq_joined, oneLine_joined, oneLine_joined, oneLine_joined, oneLine_joined,
    oneLine_joined, oneLine_joined]
  exact ⟨by decide, oneLine_toString f.line, by decide, oneLine_toString f.column, by decide,
    hseverity, by decide⟩

/-- The line of a finding begins as one. -/
theorem exists_toList_errorLine (f : Finding) :
    ∃ rest, (errorLine f).toList = "<error ".toList ++ rest := by
  have hhead : "<error line=\"".toList = "<error ".toList ++ "line=\"".toList := by decide
  unfold errorLine
  simp only [String.toList_append, hhead, List.append_assoc]
  exact ⟨_, rfl⟩

/-- **The line of a finding forges a command** exactly when its message or its source does. -/
theorem forges_errorLine (f : Finding) :
    Forges (errorLine f).toList ↔ Forges f.message.toList ∨ Forges f.source.toList := by
  have hhead : ¬ Forges (errorLineHead f).toList := (oneLine_errorLineHead f).not_forges
  have hsource : ¬ Forges " source=".toList := OneLine.not_forges (by decide)
  have hclose : ¬ Forges "/>".toList := OneLine.not_forges (by decide)
  rw [errorLine_eq_joined, forges_joined, forges_joined, forges_joined, forges_joined,
    or_iff_right hhead, or_iff_right hsource, or_iff_left hclose]

/-- The line ends of a finding's line are those of its texts. -/
theorem lineEnds_errorLine (f : Finding) :
    lineEnds (errorLine f).toList = lineEnds f.message.toList + lineEnds f.source.toList := by
  rw [errorLine_eq_joined, lineEnds_joined, lineEnds_joined, lineEnds_joined, lineEnds_joined,
    lineEnds_of_oneLine (oneLine_errorLineHead f),
    lineEnds_of_oneLine (s := " source=".toList) (by decide),
    lineEnds_of_oneLine (s := "/>".toList) (by decide), Nat.zero_add, Nat.zero_add, Nat.add_zero]

/-- **A finding takes one line, and one more for each line end in its texts.** The first one tells
what it is. -/
theorem exists_rows_errorLine {d : Display} (hd : Status.isColoured d = false) (f : Finding) :
    ∃ first rest, (Utterance.line (errorLine f)).rows d = first :: rest ∧
      "<error ".toList <+: first ∧
      rest.length = lineEnds f.message.toList + lineEnds f.source.toList := by
  have hopen : OneLine "<error ".toList := by decide
  obtain ⟨more, hmore⟩ := exists_toList_errorLine f
  obtain ⟨first, rest, hrows⟩ := exists_rows_append hopen more
  rw [← hmore] at hrows
  have hlength := length_rows (errorLine f).toList
  rw [hrows, lineEnds_errorLine, List.length_cons] at hlength
  refine ⟨withoutSequences ("<error ".toList ++ first), rest.map withoutSequences, ?_, ?_, ?_⟩
  · rw [Utterance.rows_eq hd]
    show (Text.rows (errorLine f).toList).map withoutSequences = _
    rw [hrows, List.map_cons]
  · exact ⟨withoutSequences first, rfl⟩
  · rw [List.length_map]
    exact Nat.succ_inj.mp hlength

end LintGate
