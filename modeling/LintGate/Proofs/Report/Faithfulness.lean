import LintGate.Linter
import LintGate.Proofs.Json.Nesting
import LintGate.Proofs.Json.Writing
import LintGate.Proofs.Report.Contents
import LintGate.Proofs.Text.Trimming

/-!
# A report comes through its document

The linter's document of a report is an object with the totals and, for each file, the messages that
tell its findings (`Describes`). Members stand in any order, labels are in any letter case, and
whatever else the linter has to say may stand beside them. However such a document is spelled, and
so in particular when it is written in the spaced style, reading it gives the report back; and
running a linter that prints it, with blanks around it, gives the report too.

There is one limit: a document whose brackets are nested more deeply than the reader allows is
refused. Since members that nobody asks for are read like all others, they can bring that about
(`overnested_refused`).
-/

namespace LintGate

open Json (Spelling)

/-! ## Labels -/

/-- No capital letter is blank. -/
theorem toLower_of_isBlank {c : Char} (h : Text.isBlank c = true) : c.toLower = c := by
  have hnot : ¬(65 ≤ c.toNat ∧ c.toNat ≤ 90) := by
    simp only [Text.isBlank, Text.isSpace, Bool.or_eq_true, Bool.and_eq_true, decide_eq_true_eq,
      beq_iff_eq] at h
    omega
  unfold Char.toLower
  rw [dif_neg fun hcapital => hnot ?_]
  simpa [UInt32.le_iff_toNat_le] using hcapital

/-- **A severity's name in any letter case is a label of it.** -/
theorem Severity.names_of_toLower {label : String} {s : Severity}
    (h : String.ofList (label.toList.map Char.toLower) = s.name) : Names label s := by
  have hlower : label.toList.map Char.toLower = s.name.toList := by
    rw [← h, String.toList_ofList]
  have hblank : s.name.toList.all (!Text.isBlank ·) = true := by
    cases s <;> rfl
  have hlabel : ∀ c ∈ label.toList, Text.isBlank c = false := by
    intro c hc
    by_contra hne
    -- a blank in the label would have stayed one in the name
    have hmem : c.toLower ∈ s.name.toList := hlower ▸ List.mem_map_of_mem hc
    have hisBlank : Text.isBlank c = true := by simpa using hne
    rw [toLower_of_isBlank hisBlank] at hmem
    exact hne (by simpa using List.all_eq_true.1 hblank _ hmem)
  have htrim : Text.trimWith Text.isBlank label.toList = label.toList :=
    Text.trimWith_of_ends (fun c hc => hlabel c (List.mem_of_mem_head? hc))
      (fun c hc => hlabel c (List.mem_of_getLast? hc))
  rw [Names, Text.trim, htrim, String.toList_ofList]
  exact h

namespace Report

/-! ## Descriptions -/

/-- **A proper report** lists no file twice, and each finding belongs to the file that it stands
under and has its place counted from one. -/
structure Proper (r : Report) : Prop where
  /-- No file is listed twice. -/
  nodup : r.names.Nodup
  /-- A finding names its own file. -/
  file_eq : ∀ f ∈ r.files, ∀ d ∈ f.2, d.file = f.1
  /-- Lines are counted from one, -/
  one_le_line : ∀ f ∈ r.files, ∀ d ∈ f.2, 1 ≤ d.line
  /-- and so are columns. -/
  one_le_column : ∀ f ∈ r.files, ∀ d ∈ f.2, 1 ≤ d.column

/-- **A message tells a finding.** -/
structure Tells (j : Json) (d : Finding) : Prop where
  /-- What it says. -/
  message : j.member? "message" = some (.str d.message)
  /-- The rule that made it. -/
  source : j.member? "source" = some (.str d.source)
  /-- The name of its severity, in any letter case. -/
  label : ∃ label, j.member? "type" = some (.str label) ∧
    String.ofList (label.toList.map Char.toLower) = d.severity.name
  /-- The line. -/
  line : j.member? "line" = some (.int d.line)
  /-- The column. -/
  column : j.member? "column" = some (.int d.column)

/-- The entry of a file tells its findings, in order. -/
def TellsAll (entry : Json) (ds : List Finding) : Prop :=
  ∃ ms, entry.member? "messages" = some (.arr ms) ∧ List.Forall₂ Tells ms ds

/-- **A document describes a report.** Other members may stand at every level. -/
structure Describes (j : Json) (r : Report) : Prop where
  /-- The totals are given. -/
  totals : ∃ t, j.member? "totals" = some t ∧
    t.member? "errors" = some (.int r.totals.errors) ∧
    t.member? "warnings" = some (.int r.totals.warnings) ∧
    t.member? "fixable" = some (.int r.totals.fixable)
  /-- The files are listed in their order, each with messages that tell its findings. -/
  files : ∃ es, j.member? "files" = some (.obj es) ∧
    List.Forall₂ (fun e f => f.1 = e.1 ∧ TellsAll e.2 f.2) es r.files

/-! ## Reading a description -/

theorem hasText_of_member? {sp : Spelling} {key s : String}
    (h : sp.value.member? key = some (.str s)) : HasText sp key s := by
  rw [Json.Spelling.member?_value] at h
  exact Option.map_eq_some_iff.1 h

theorem hasInteger_of_member? {sp : Spelling} {key : String} {i : Int}
    (h : sp.value.member? key = some (.int i)) : HasInteger sp key i := by
  rw [Json.Spelling.member?_value] at h
  obtain ⟨v, hv, hvalue⟩ := Option.map_eq_some_iff.1 h
  exact ⟨v, hv, by rw [hvalue]; rfl⟩

/-- **What a message tells, it says.** -/
theorem Tells.conveys {sp : Spelling} {d : Finding} (h : Tells sp.value d) {file : String}
    (hfile : d.file = file) (hline : 1 ≤ d.line) (hcolumn : 1 ≤ d.column) : Conveys file sp d := by
  obtain ⟨label, hlabel, hname⟩ := h.label
  exact {
    file_eq := hfile
    message := hasText_of_member? h.message
    source := .inr (hasText_of_member? h.source)
    severity := ⟨label, hasText_of_member? hlabel, Severity.names_of_toLower hname⟩
    line := hasInteger_of_member? h.line
    column := hasInteger_of_member? h.column
    one_le_line := hline
    one_le_column := hcolumn }

/-- The entry of a file has the findings that its messages tell. -/
theorem found_of_tells {file : String} {entry : Spelling} {ms : List Json} {ds : List Finding}
    (hms : entry.value.member? "messages" = some (.arr ms)) (htells : List.Forall₂ Tells ms ds)
    (hds : ∀ d ∈ ds, d.file = file ∧ 1 ≤ d.line ∧ 1 ≤ d.column) : Found file entry ds := by
  rw [Json.Spelling.member?_value] at hms
  obtain ⟨list, hlist, hvalue⟩ := Option.map_eq_some_iff.1 hms
  obtain ⟨items, hitems, rfl⟩ := Json.Spelling.value_eq_arr_iff.1 hvalue
  rw [List.forall₂_map_left_iff] at htells
  refine ⟨Json.Spelling.exists_entries_of_member? hlist, .inr ⟨list, items, hlist, hitems, ?_⟩⟩
  refine List.forall₂_iff_zip.2 ⟨htells.length_eq, fun {sp d} hmem => ?_⟩
  obtain ⟨hfile, hline, hcolumn⟩ := hds d (List.of_mem_zip hmem).2
  exact (List.forall₂_zip htells hmem).conveys hfile hline hcolumn

/-- **A document that describes a proper report yields it.** -/
theorem Describes.yields {sp : Spelling} {r : Report} (h : Describes sp.value r) (hr : Proper r) :
    Yields sp r := by
  obtain ⟨t, ht, herrors, hwarnings, hfixable⟩ := h.totals
  obtain ⟨es, hfiles, hentries⟩ := h.files
  rw [Json.Spelling.member?_value] at ht hfiles
  obtain ⟨counts, hcounts, rfl⟩ := Option.map_eq_some_iff.1 ht
  obtain ⟨list, hlist, hobj⟩ := Option.map_eq_some_iff.1 hfiles
  refine ⟨Json.Spelling.exists_entries_of_member? hcounts, ⟨counts, hcounts, ?_⟩,
    .inr ⟨list, hlist, ?_⟩⟩
  · obtain ⟨v, hv, -⟩ := hasInteger_of_member? herrors
    exact ⟨Json.Spelling.exists_entries_of_member? hv, .inr (hasInteger_of_member? herrors),
      .inr (hasInteger_of_member? hwarnings), .inr (hasInteger_of_member? hfixable)⟩
  · obtain ⟨ws, hws, hes⟩ := Json.Spelling.value_eq_obj_iff.1 hobj
    have hnodup : (Table.keys es).Nodup := hes ▸ Table.nodup_keys_ofEntries _
    obtain ⟨hkeys, hall⟩ := (Table.forall₂_iff_get? (R := fun _ => TellsAll) hnodup).1 hentries
    refine ⟨⟨ws, hws, hkeys.trans (Json.Spelling.keys_of_value_eq_obj hobj hws)⟩, ?_⟩
    intro f hf
    obtain ⟨v, hv, ms, hms, htells⟩ := hall f hf
    rw [Json.Spelling.get?_of_value_eq_obj hobj] at hv
    obtain ⟨entry, hentry, rfl⟩ := Option.map_eq_some_iff.1 hv
    exact ⟨entry, hentry, found_of_tells hms htells fun d hd =>
      ⟨hr.file_eq f hf d hd, hr.one_le_line f hf d hd, hr.one_le_column f hf d hd⟩⟩

/-! ## Blanks around a description -/

theorem isBlank_of_isFiller {c : Char} (h : Json.isFiller c = true) : Text.isBlank c = true := by
  simp only [Json.isFiller, Bool.or_eq_true, beq_iff_eq] at h
  rcases h with ((rfl | rfl) | rfl) | rfl <;> decide

/-- The last character of a text is that of its end. -/
theorem getLast?_cons_append {c d : Char} {l t : List Char} (h : t.getLast? = some d) :
    (c :: (l ++ t)).getLast? = some d := by
  rw [← List.cons_append, List.getLast?_append, h]
  rfl

theorem getLast?_members : ∀ ms : Json.Members, ms.text.getLast? = some '\x7d'
  | .last k v gap => by simp [Json.Members.text]
  | .more k v before behind rest => by
    have hrest := getLast?_cons_append (c := ',') (l := behind.chars) (getLast?_members rest)
    simp [Json.Members.text, List.getLast?_append, hrest]

/-- An object begins and ends with its brackets. -/
theorem ends_of_object {sp : Spelling} {es : List (String × Spelling)}
    (h : sp.entries? = some es) :
    sp.text.head? = some '\x7b' ∧ sp.text.getLast? = some '\x7d' := by
  cases sp with
  | emptyObject gap => exact ⟨rfl, getLast?_cons_append rfl⟩
  | object gap ms => exact ⟨rfl, getLast?_cons_append (getLast?_members ms)⟩
  | _ => simp [Spelling.entries?] at h

/-- **Trimming a document leaves the object** that it spells. -/
theorem trimmed?_of_spells {sp : Spelling} {s : String} {es : List (String × Spelling)}
    (hs : sp.Spells s) (h : sp.entries? = some es) :
    Text.trimmed? s = some (String.ofList sp.text) := by
  obtain ⟨before, behind, hs⟩ := hs
  obtain ⟨hfirst, hlast⟩ := ends_of_object h
  have hne : sp.text ≠ [] := by
    intro hnil
    rw [hnil] at hfirst
    cases hfirst
  have htrim : Text.trimWith Text.isBlank s.toList = sp.text := by
    rw [hs]
    refine Text.trimWith_surrounded hne ?_ ?_ ?_ ?_
    · exact fun c hc => isBlank_of_isFiller (before.isFiller_of_mem c hc)
    · exact fun c hc => isBlank_of_isFiller (behind.isFiller_of_mem c hc)
    · rw [hfirst]
      rintro _ ⟨⟩
      rfl
    · rw [hlast]
      rintro _ ⟨⟩
      rfl
  refine Text.trimmed?_eq_some_iff.2 ⟨by rw [Text.trim, htrim], fun hempty => hne ?_⟩
  simpa using congrArg String.toList hempty

/-- **A linter that prints a document gives the report** that is read from the document. -/
theorem lint_of_spells {sp : Spelling} {s : String} {r : Report} (hs : sp.Spells s)
    (hnesting : sp.nesting ≤ Json.deepest) (hyields : Yields sp r) {run : Runner}
    {folder : Option Path} {linter : Path} {options : Table String String} {files : List String}
    (hfiles : files ≠ []) {f : Finished}
    (hrun : (run (Linter.command linter options files) folder).result = .ok f)
    (hstatus : f.status ≤ Linter.highestStatus) (houtput : f.output = some s) :
    Linter.lint run folder linter options files =
      ⟨(run (Linter.command linter options files) folder).calls, .ok r⟩ := by
  obtain ⟨es, hes⟩ := hyields.isObject
  have hparse : parse (String.ofList sp.text) = .ok r :=
    parse_eq_ok_iff.2 ⟨sp, ⟨.none, .none, by simp [Json.Gap.none]⟩, hnesting, hyields⟩
  have hreport : Linter.reportOf (Linter.command linter options files) f = .ok r := by
    rw [Linter.reportOf, if_neg (Int.not_lt.2 hstatus), Finished.outputText, houtput,
      Option.getD_some, trimmed?_of_spells hs hes]
    dsimp only
    rw [hparse]
    rfl
  obtain ⟨file, files, rfl⟩ := List.exists_cons_of_ne_nil hfiles
  unfold Linter.lint
  dsimp only
  rw [Attempt.bind_of_ok hrun, hreport]
  simp [Attempt.ofResult]

/-! ## The result -/

/-- **A described report comes through**: every document of the description is read as the report
unless it is nested too deeply, a linter that prints it gives the report, and what the spaced style
writes, with blanks around it, is a document of the description. -/
theorem parse_described {r : Report} {j : Json} (hr : Proper r) (hj : Describes j r) :
    (∀ s : String, Json.IsDocument s j →
      (Json.bracketDepth s ≤ Json.deepest →
        parse s = .ok r ∧
        ∀ (run : Runner) (folder : Option Path) (linter : Path) (options : Table String String)
          (files : List String) (f : Finished), files ≠ [] →
          (run (Linter.command linter options files) folder).result = .ok f →
          f.status ≤ Linter.highestStatus → f.output = some s →
          Linter.lint run folder linter options files =
            ⟨(run (Linter.command linter options files) folder).calls, .ok r⟩) ∧
      (Json.deepest < Json.bracketDepth s → ∃ b, parse s = .error (.text (.nesting b)))) ∧
    ∀ (frac : Json.Binary → List Char) (before behind : Json.Gap),
      Json.Writable (Json.spacedWith frac) j →
      Json.IsDocument (String.ofList
        (before.chars ++ ((j.write (Json.spacedWith frac)).toList ++ behind.chars))) j := by
  refine ⟨fun s hs => ?_, fun frac before behind hwritable => ?_⟩
  · obtain ⟨sp, hspells, rfl⟩ := hs
    have hyields := hj.yields hr
    rw [Json.bracketDepth_of_spells hspells]
    refine ⟨fun hdepth => ⟨?_, ?_⟩, fun hdepth => ?_⟩
    · exact parse_eq_ok_iff.2 ⟨sp, hspells, hdepth, hyields⟩
    · intro run folder linter options files f hfiles hrun hstatus houtput
      exact lint_of_spells hspells hdepth hyields hfiles hrun hstatus houtput
    · obtain ⟨b, hb⟩ := Json.exists_nesting_of_lt hspells hdepth
      exact ⟨b, by rw [parse, hb]⟩
  · obtain ⟨sp, htext, hvalue⟩ := Json.exists_spelling_of_writable j hwritable
    refine ⟨sp, ⟨before, behind, ?_⟩, hvalue⟩
    rw [String.toList_ofList, Json.write, String.toList_ofList, htext]

/-- A report on two files, the second of them without findings. -/
def sample : Report where
  totals := ⟨1, 0, 1⟩
  files := [("é😀.php", [⟨"é😀.php", 3, 7, .error, "say \"hi\"\t\\", "Rule.A"⟩]), ("a.php", [])]

/-- A description of it, with members at every level that nobody asks for. -/
def sampleDocument : Json := .obj [
  ("files", .obj [
    ("é😀.php", .obj [("errors", .int 1), ("messages", .arr [.obj [
      ("column", .int 7), ("line", .int 3), ("type", .str "eRRoR"), ("source", .str "Rule.A"),
      ("severity", .frac (.ofDecimal false 5 2 (-1))), ("message", .str "say \"hi\"\t\\")]])]),
    ("a.php", .obj [("messages", .arr []), ("note", .null)])]),
  ("totals", .obj [
    ("fixable", .int 1), ("warnings", .int 0), ("errors", .int 1), ("more", .arr [.bool true])])]

/-- What a linter prints that has found what the sample reports. -/
def sampleText : String := sampleDocument.write (Json.spacedWith Json.Binary.text)

theorem parse_described_sample :
    Proper sample ∧ Describes sampleDocument sample ∧
      Json.Writable (Json.spacedWith Json.Binary.text) sampleDocument ∧
      Json.bracketDepth sampleText ≤ Json.deepest ∧ parse sampleText = .ok sample ∧
      Linter.lint (fun _ _ => .done ⟨2, some sampleText, none⟩) none (.ofString "phpcs") []
        ["a.php", "é😀.php"] = ⟨[], .ok sample⟩ := by
  have hr : Proper sample := by
    constructor <;> decide
  have hj : Describes sampleDocument sample := by
    refine ⟨⟨_, rfl, rfl, rfl, rfl⟩, _, rfl, .cons ⟨rfl, _, rfl, .cons ?_ .nil⟩
      (.cons ⟨rfl, _, rfl, .nil⟩ .nil)⟩
    exact ⟨rfl, rfl, ⟨"eRRoR", rfl, by decide⟩, rfl, rfl⟩
  have hhalf : Json.Writable (Json.spacedWith Json.Binary.text)
      (.frac (.ofDecimal false 5 2 (-1))) :=
    ⟨.number ⟨false, [0], by decide, fun _ => rfl, [5], none, by decide⟩, by decide +kernel, rfl⟩
  have hdigit : ∀ {i : Int}, i.natAbs < 10 →
      Json.Writable (Json.spacedWith Json.Binary.text) (.int i) := Json.writable_int_of_lt_ten
  have hwritable : Json.Writable (Json.spacedWith Json.Binary.text) sampleDocument := by
    refine ⟨by decide, ⟨by decide, ⟨by decide, hdigit (by decide), ⟨?_, trivial⟩, trivial⟩,
      ⟨by decide, trivial, trivial, trivial⟩, trivial⟩, ⟨by decide, ?_⟩, trivial⟩
    · exact ⟨by decide, hdigit (by decide), hdigit (by decide), trivial, trivial, hhalf, trivial,
        trivial⟩
    · exact ⟨hdigit (by decide), hdigit (by decide), hdigit (by decide), ⟨trivial, trivial⟩,
        trivial⟩
  have hdepth : Json.bracketDepth sampleText ≤ Json.deepest := by
    rw [sampleText, Json.bracketDepth_write]
    decide +kernel
  have hdocument := (parse_described hr hj).2 Json.Binary.text .none .none hwritable
  rw [Json.Gap.none, List.append_nil, List.nil_append, String.ofList_toList] at hdocument
  obtain ⟨hparse, hlint⟩ := ((parse_described hr hj).1 sampleText hdocument).1 hdepth
  exact ⟨hr, hj, hwritable, hdepth, hparse,
    hlint _ _ _ _ _ ⟨2, some sampleText, none⟩ (List.cons_ne_nil _ _) rfl (by decide) rfl⟩

/-! ## The limit -/

/-- Arrays one inside the other, as many as `n` inside the outermost one. -/
def nested : Nat → Json
  | 0 => .arr []
  | n + 1 => .arr [nested n]

/-- A description of the empty report with a member that nobody asks for. -/
def overnested : Json := .obj [
  ("x", nested 993),
  ("totals", .obj [("errors", .int 0), ("warnings", .int 0), ("fixable", .int 0)]),
  ("files", .obj [])]

theorem writable_nested (style : Json.Style) (n : Nat) : Json.Writable style (nested n) := by
  induction n with
  | zero => exact trivial
  | succ n ih => exact ⟨ih, trivial⟩

/-- Nested arrays open as many brackets as there are arrays. -/
theorem mostOpen_nested (style : Json.Style) (n o : Nat) (rest : List Char) :
    o + (n + 1) ≤ Json.mostOpen o false (style.value (nested n) ++ rest) := by
  induction n generalizing o rest with
  | zero =>
    show o + 1 ≤ Json.mostOpen o false ('[' :: ']' :: rest)
    rw [Json.mostOpen_bracket]
    exact Json.le_mostOpen (o + 1) false _
  | succ n ih =>
    have hinner := ih (o + 1) (']' :: rest)
    show o + (n + 2) ≤ Json.mostOpen o false ('[' :: (style.value (nested n) ++ [']']) ++ rest)
    rw [List.cons_append, Json.mostOpen_bracket, List.append_assoc]
    exact Nat.le_trans (by omega) hinner

theorem deepest_lt_overnested :
    Json.deepest < Json.bracketDepth (overnested.write Json.spaced) := by
  have hopen : Json.bracketDepth (overnested.write Json.spaced) =
      Json.mostOpen 1 false (Json.spaced.value (nested 993) ++ (Json.spaced.comma ++
        (Json.spaced.members [
          ("totals", .obj [("errors", .int 0), ("warnings", .int 0), ("fixable", .int 0)]),
          ("files", .obj [])] ++ ['\x7d']))) := by
    rw [Json.bracketDepth_write, overnested, Json.Style.value,
      Json.Style.members.eq_3 _ _ _ _ (by simp)]
    -- the number of arrays plays no part in what is written in front of them
    generalize nested 993 = j
    simp only [List.append_assoc, List.cons_append]
    rw [show Json.spaced.string "x" = ['"', 'x', '"'] from by decide +kernel]
    simp [Json.mostOpen, Json.spaced]
  rw [hopen]
  have hdeep := mostOpen_nested Json.spaced 993 1
  exact Nat.lt_of_lt_of_le (by decide) (hdeep _)

/-- **A description that is nested too deeply does not come through**, although it can be
written. -/
theorem overnested_refused :
    Proper {} ∧ Describes overnested {} ∧ Json.Writable Json.spaced overnested ∧
      parse (overnested.write Json.spaced) ≠ .ok {} := by
  have hj : Describes overnested {} :=
    ⟨⟨_, rfl, rfl, rfl, rfl⟩, [], rfl, .nil⟩
  have hr : Proper {} := by constructor <;> simp [names, Table.keys]
  have hzero : Json.Writable Json.spaced (.int 0) := Json.writable_int_of_lt_ten (by decide)
  have hwritable : Json.Writable Json.spaced overnested :=
    ⟨by decide, writable_nested Json.spaced 993,
      ⟨by decide, hzero, hzero, hzero, trivial⟩, ⟨List.nodup_nil, trivial⟩, trivial⟩
  refine ⟨hr, hj, hwritable, fun hparse => ?_⟩
  obtain ⟨sp, hs, hnesting, -⟩ := parse_eq_ok_iff.1 hparse
  exact Nat.not_lt.2 hnesting (Json.bracketDepth_of_spells hs ▸ deepest_lt_overnested)

end Report

end LintGate
