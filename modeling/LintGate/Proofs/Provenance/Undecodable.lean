import LintGate.Host.Launch
import LintGate.Proofs.Provenance.Forgery
import LintGate.Proofs.Text.Encoding

/-!
# Provenance of files that are no text

The version control system prints the lines of a file as they are in the file, and these are bytes
in any encoding or in none. What it prints is decoded as a whole, with a replacement character for
every run of bytes that encodes nothing, so it has to be shown that such a run never reaches beyond
the line it stands in. A *raw record* is a record whose texts are bytes. Its header, its keywords
and the tab before its content are ASCII, and ASCII cuts the bytes (`Text.replaced_append_ascii`):
every line is decoded on its own.

What is left of a raw record is then a record (`RawRecord.record`), and as long as no text of it
decodes to a character that ends a line, the headers that are read are those that were printed. The
provenance depends on nothing else (`blame_undecodable`).
-/

namespace LintGate.Porcelain

open Text

/-! ## Raw records -/

/-- **Bytes that somebody wrote** on a line. Of the characters that end a line they may decode to
two only, and for these there are rules of their own. -/
structure RawText where
  /-- The bytes. -/
  bytes : List UInt8
  /-- No line feed is among them. -/
  lineFeed_not_mem : 0x0a ∉ bytes
  /-- They decode to no other character that ends a line. -/
  breaks : ∀ c ∈ replaced bytes, isBreak c = true → c = '\n' ∨ c = '\r'

/-- Whether a byte is missing can be computed. -/
theorem not_mem_of_all {b : UInt8} {bs : List UInt8} (h : bs.all (· != b) = true) : b ∉ bs := by
  intro hb
  simpa using List.all_eq_true.1 h b hb

/-- Whether bytes decode to no unwanted break can be computed. -/
theorem breaks_of_all {bs : List UInt8}
    (h : (replaced bs).all (fun c => !isBreak c || c == '\n' || c == '\r') = true) :
    ∀ c ∈ replaced bs, isBreak c = true → c = '\n' ∨ c = '\r' := by
  intro c hc hbreak
  simpa [hbreak] using List.all_eq_true.1 h c hc

/-- **A raw line of commit data.** -/
structure RawDataLine where
  /-- Its keyword. -/
  keyword : Keyword
  /-- What stands behind the keyword. -/
  text : RawText
  /-- No carriage return is in it. -/
  return_not_mem : 0x0d ∉ text.bytes

/-- **A raw record.** -/
structure RawRecord where
  /-- Which line it is about, and the revision that last touched it. -/
  header : Header
  /-- The commit data. -/
  data : List RawDataLine
  /-- The line itself. -/
  content : RawText
  /-- A carriage return may stand at its end and nowhere else. -/
  return_not_mem : 0x0d ∉ content.bytes.dropLast

/-- A raw line of commit data as it is printed. -/
def RawDataLine.printed (d : RawDataLine) : List UInt8 :=
  asciiBytes d.keyword.chars ++ d.text.bytes

/-- The lines of a raw record as they are printed. -/
def RawRecord.printedLines (r : RawRecord) : List (List UInt8) :=
  asciiBytes r.header.chars ::
    (r.data.map RawDataLine.printed ++ [asciiBytes ['\t'] ++ r.content.bytes])

/-- **The printed bytes**: all lines of all raw records, joined by line feeds. -/
def printedBytes (rs : List RawRecord) : List UInt8 :=
  [0x0a].intercalate (rs.flatMap RawRecord.printedLines)

/-! ## Decoding line by line -/

/-- **Bytes that read as a line**: they decode to it, but for a carriage return at their end. -/
structure ReadsAs (bs : List UInt8) (l : List Char) : Prop where
  /-- No carriage return is in the line. -/
  return_not_mem : '\r' ∉ l
  /-- What the bytes decode to. -/
  replaced_eq : replaced bs = l ∨ replaced bs = l ++ ['\r']

/-- A line feed is ASCII. -/
theorem isAscii_lineFeed : IsAscii 0x0a := by decide

/-- **Bytes that read as a line, and what follows a line feed behind them**, are read apart. -/
theorem ReadsAs.unify_append {bs : List UInt8} {l : List Char} (h : ReadsAs bs l)
    (rest : List UInt8) :
    unifyLineEnds (replaced (bs ++ 0x0a :: rest))
      = l ++ '\n' :: unifyLineEnds (replaced rest) := by
  have hchar : asciiChar 0x0a = '\n' := by decide
  rw [replaced_append_ascii bs isAscii_lineFeed, hchar]
  rcases h.replaced_eq with heq | heq <;> rw [heq]
  · rw [unifyLineEnds_append h.return_not_mem, unifyLineEnds]
    · rfl
    · exact fun t hn _ => absurd hn (by decide)
  · rw [List.append_assoc, unifyLineEnds_append h.return_not_mem]
    rfl

/-- Bytes that read as a line and are the last ones may leave a line feed behind. -/
theorem ReadsAs.unify {bs : List UInt8} {l : List Char} (h : ReadsAs bs l) :
    unifyLineEnds (replaced bs) = l ∨ unifyLineEnds (replaced bs) = l ++ ['\n'] := by
  rcases h.replaced_eq with heq | heq <;> rw [heq]
  · left
    rw [← List.append_nil l, unifyLineEnds_append (by simpa using h.return_not_mem)]
    rfl
  · right
    rw [unifyLineEnds_append h.return_not_mem]
    rfl

/-- **Lines that are joined by line feeds are decoded one by one.** What is left over at the end are
empty lines. -/
theorem unify_intercalate (ps : List (List UInt8 × List Char)) (h : ∀ p ∈ ps, ReadsAs p.1 p.2)
    {ending : List UInt8} (hending : ending = [] ∨ ending = [0x0a]) :
    ∃ gap : List (List Char), (∀ l ∈ gap, l = []) ∧
      unifyLineEnds (replaced ([0x0a].intercalate (ps.map Prod.fst) ++ ending))
        = ['\n'].intercalate (ps.map Prod.snd ++ gap) := by
  induction ps with
  | nil =>
    rcases hending with rfl | rfl
    · exact ⟨[], by simp, rfl⟩
    · exact ⟨[[], []], by simp, rfl⟩
  | cons p ps ih =>
    have hp := h p List.mem_cons_self
    cases ps with
    | nil =>
      rcases hending with rfl | rfl
      · rcases hp.unify with heq | heq
        · exact ⟨[], by simp, by simpa using heq⟩
        · exact ⟨[[]], by simp, by simpa using heq⟩
      · have hnil : unifyLineEnds (replaced []) = [] := rfl
        have hend := hp.unify_append []
        rw [hnil] at hend
        exact ⟨[[]], by simp, by simpa using hend⟩
    | cons q ps =>
      obtain ⟨gap, hgap, hrest⟩ := ih fun q hq => h q (List.mem_cons_of_mem _ hq)
      refine ⟨gap, hgap, ?_⟩
      simp only [List.map_cons, List.cons_append, List.intercalate_cons_cons, List.append_assoc,
        List.nil_append] at hrest ⊢
      rw [hp.unify_append, hrest]

/-! ## The record that is left -/

namespace RawText

/-- The bytes as text hold no line feed. -/
theorem lineFeed_not_mem_replaced (t : RawText) : '\n' ∉ replaced t.bytes :=
  fun h => t.lineFeed_not_mem (mem_of_mem_replaced (by decide) h)

/-- Bytes without a carriage return are unbroken text. -/
theorem unbroken_replaced (t : RawText) (h : 0x0d ∉ t.bytes) : Unbroken (replaced t.bytes) := by
  intro c hc
  rw [← Bool.not_eq_true]
  intro hbreak
  rcases t.breaks c hc hbreak with rfl | rfl
  · exact t.lineFeed_not_mem_replaced hc
  · exact h (mem_of_mem_replaced (by decide) hc)

end RawText

/-- Unbroken text holds no carriage return. -/
theorem return_not_mem_of_unbroken {s : List Char} (h : Unbroken s) : '\r' ∉ s :=
  fun hr => absurd (h _ hr) (by decide)

/-- Unbroken text is inline. -/
def Inline.ofUnbroken (s : List Char) (h : Unbroken s) : Inline where
  chars := s
  not_mem hn := absurd (h _ hn) (by decide)

/-- A raw line of commit data as it is read. -/
def RawDataLine.dataLine (d : RawDataLine) : DataLine where
  keyword := d.keyword
  text := .ofUnbroken (replaced d.text.bytes) (d.text.unbroken_replaced d.return_not_mem)

namespace RawRecord

variable (r : RawRecord)

/-- The content without the carriage return at its end. -/
def body : List UInt8 :=
  if 0x0d ∈ r.content.bytes then r.content.bytes.dropLast else r.content.bytes

/-- The content is its body, and perhaps a carriage return. -/
theorem content_eq : r.content.bytes = r.body ∨ r.content.bytes = r.body ++ [0x0d] := by
  unfold body
  split
  · next hmem =>
    right
    have hne : r.content.bytes ≠ [] := List.ne_nil_of_mem hmem
    have hlast : r.content.bytes.getLast hne = 0x0d := by
      rw [← List.dropLast_concat_getLast hne, List.mem_append, List.mem_singleton] at hmem
      exact (hmem.resolve_left r.return_not_mem).symm
    rw [← hlast, List.dropLast_concat_getLast]
  · exact .inl rfl

theorem return_not_mem_body : 0x0d ∉ r.body := by
  unfold body
  split
  · exact r.return_not_mem
  · assumption

/-- The content as text is its body as text, and perhaps a carriage return. -/
theorem replaced_content :
    replaced r.content.bytes = replaced r.body ∨
      replaced r.content.bytes = replaced r.body ++ ['\r'] := by
  refine r.content_eq.imp (congrArg replaced) fun h => ?_
  have hascii : IsAscii 0x0d := by decide
  rw [h, replaced_append_ascii _ hascii]
  rfl

theorem unbroken_body : Unbroken (replaced r.body) := by
  have hsub : ∀ c ∈ replaced r.body, c ∈ replaced r.content.bytes := by
    intro c hc
    rcases r.replaced_content with h | h <;> rw [h]
    · exact hc
    · exact List.mem_append_left _ hc
  intro c hc
  rw [← Bool.not_eq_true]
  intro hbreak
  rcases r.content.breaks c (hsub c hc) hbreak with rfl | rfl
  · exact r.content.lineFeed_not_mem_replaced (hsub _ hc)
  · exact r.return_not_mem_body (mem_of_mem_replaced (by decide) hc)

/-- **The record that a raw record is read as.** -/
def record : Record where
  header := r.header
  data := r.data.map RawDataLine.dataLine
  content := .ofUnbroken (replaced r.body) r.unbroken_body

/-- The lines of a raw record, and what they are read as. -/
def lines : List (List UInt8 × List Char) :=
  (asciiBytes r.header.chars, r.header.chars) ::
    (r.data.map (fun d => (d.printed, d.dataLine.chars)) ++
      [(asciiBytes ['\t'] ++ r.content.bytes, '\t' :: replaced r.body)])

theorem map_fst_lines : r.lines.map Prod.fst = r.printedLines := by
  simp [lines, printedLines, Function.comp_def]

theorem map_snd_lines : r.lines.map Prod.snd = r.record.printedLines := by
  simp [lines, Record.printedLines, record, Inline.ofUnbroken, Function.comp_def]

end RawRecord

/-! ### Every line is decoded on its own -/

theorem Numeral.toNat_lt_of_mem_chars (n : Numeral) : ∀ c ∈ n.chars, c.toNat < 128 := by
  have hdigit : ∀ d : Fin 10, (digitChar d).toNat < 128 := by decide
  intro c hc
  obtain ⟨d, -, rfl⟩ := List.mem_map.1 hc
  exact hdigit d

/-- Headers are printed in ASCII. -/
theorem Header.toNat_lt_of_mem_chars (h : Header) : ∀ c ∈ h.chars, c.toNat < 128 := by
  have hsize : ∀ c ∈ h.sizeChars, c.toNat < 128 := by
    unfold sizeChars
    split
    · simp
    · next n _ => exact List.forall_mem_cons.2 ⟨by decide, n.toNat_lt_of_mem_chars⟩
  have hrevision : ∀ c ∈ h.revision, c.toNat < 128 := by
    intro c hc
    have hrange := range_of_isRevisionDigit (h.isRevisionDigit_of_mem c hc)
    omega
  unfold chars
  simp only [List.forall_mem_append, List.forall_mem_cons]
  exact ⟨hrevision, by decide, h.original.toNat_lt_of_mem_chars, by decide,
    h.line.toNat_lt_of_mem_chars, hsize⟩

/-- Keywords are printed in ASCII. -/
theorem Keyword.toNat_lt_of_mem_chars (k : Keyword) : ∀ c ∈ k.chars, c.toNat < 128 := by
  have hall : k.chars.all (fun c => c.toNat < 128) = true := by cases k <;> decide
  exact fun c hc => of_decide_eq_true (List.all_eq_true.1 hall c hc)

/-- ASCII in front of bytes that decode to unbroken text. -/
theorem readsAs_ascii {k l : List Char} {bs : List UInt8} (hk : ∀ c ∈ k, c.toNat < 128)
    (hku : Unbroken k) (hl : Unbroken l)
    (hbs : replaced bs = l ∨ replaced bs = l ++ ['\r']) :
    ReadsAs (asciiBytes k ++ bs) (k ++ l) where
  return_not_mem := return_not_mem_of_unbroken (unbroken_append.2 ⟨hku, hl⟩)
  replaced_eq := by
    rw [replaced_asciiBytes_append hk]
    rcases hbs with h | h <;> rw [h]
    · exact .inl rfl
    · exact .inr (List.append_assoc ..).symm

/-- **Every line of a raw record reads as a line of the record.** -/
theorem RawRecord.readsAs_of_mem_lines (r : RawRecord) :
    ∀ p ∈ r.lines, ReadsAs p.1 p.2 := by
  intro p hp
  rcases List.mem_cons.1 hp with rfl | hp
  · have h : ReadsAs (asciiBytes r.header.chars ++ []) (r.header.chars ++ []) :=
      readsAs_ascii r.header.toNat_lt_of_mem_chars r.header.unbroken_chars unbroken_nil (.inl rfl)
    simpa using h
  · rcases List.mem_append.1 hp with hp | hp
    · obtain ⟨d, -, rfl⟩ := List.mem_map.1 hp
      exact readsAs_ascii d.keyword.toNat_lt_of_mem_chars d.keyword.unbroken_chars
        (d.text.unbroken_replaced d.return_not_mem) (.inl rfl)
    · rw [List.mem_singleton.1 hp]
      have htab : ∀ c ∈ ['\t'], c.toNat < 128 := List.forall_mem_singleton.2 (by decide)
      exact readsAs_ascii htab (by decide) r.unbroken_body r.replaced_content

/-- The record that is left is plain. -/
theorem RawRecord.isPlain_record (r : RawRecord) : r.record.IsPlain := by
  have hdrop : ∀ s : List Char, Unbroken s → Unbroken s.dropLast :=
    fun s hs c hc => hs c (List.dropLast_subset s hc)
  refine ⟨?_, hdrop _ r.unbroken_body⟩
  intro d hd
  obtain ⟨raw, -, rfl⟩ := List.mem_map.1 hd
  exact hdrop _ (raw.text.unbroken_replaced raw.return_not_mem)

/-! ## What is read -/

/-- **The headers read in the printed bytes are those that were printed.** -/
theorem headersIn_printedBytes (rs : List RawRecord) {ending : List UInt8}
    (hending : ending = [] ∨ ending = [0x0a]) :
    headersIn (unifyLineEnds (replaced (printedBytes rs ++ ending)))
      = rs.map fun r => r.header.read := by
  have hreads : ∀ p ∈ rs.flatMap RawRecord.lines, ReadsAs p.1 p.2 := by
    intro p hp
    obtain ⟨r, -, hr⟩ := List.mem_flatMap.1 hp
    exact r.readsAs_of_mem_lines p hr
  obtain ⟨gap, hgap, htext⟩ := unify_intercalate _ hreads hending
  rw [List.map_flatMap, List.map_flatMap] at htext
  simp only [RawRecord.map_fst_lines, RawRecord.map_snd_lines] at htext
  have hfeed : ∀ l ∈ (rs.flatMap fun r => r.record.printedLines) ++ gap, '\n' ∉ l := by
    intro l hl
    rcases List.mem_append.1 hl with hl | hl
    · obtain ⟨r, -, hr⟩ := List.mem_flatMap.1 hl
      exact r.record.not_mem_of_mem_printedLines l hr
    · rw [hgap l hl]
      exact List.not_mem_nil
  have hnone : gap.flatMap headersIn = [] := by
    rw [List.flatMap_eq_nil_iff]
    intro l hl
    rw [hgap l hl]
    rfl
  have hrecord : ∀ r : RawRecord, r.record.printedLines.flatMap headersIn = [r.header.read] := by
    intro r
    rw [Record.flatMap_printedLines, Record.headers, r.isPlain_record.strays_eq]
    rfl
  rw [printedBytes, htext, headersIn_intercalate hfeed, List.flatMap_append, hnone,
    List.append_nil, List.flatMap_assoc]
  simp only [hrecord]
  exact List.flatMap_pure_eq_map ..

/-- **What headers tell**: the revision of each line, the last header of the line taken. -/
def told (hs : List Header) : Provenance :=
  Table.ofEntries (hs.map fun h => (h.line.value, String.ofList h.revision))

/-- **A host that prints raw records** when it is asked for the provenance of a file: it has the
version control system, and that ends with status zero. -/
def PrintsRecords (h : Host) (range file : String) (rs : List RawRecord) : Prop :=
  ∃ git ending errors, h.executables.get? "git" = some git ∧
    (ending = [] ∨ ending = [0x0a]) ∧
    h.answer (git :: (Blame.command range file).tail)
      = .finished 0 (printedBytes rs ++ ending) errors

/-- Bytes are decoded with replacement, and their line ends unified. -/
theorem textOf_replace (bs : List UInt8) :
    Host.textOf .utf8 .replace bs = .ok (String.ofList (unifyLineEnds (replaced bs))) := by
  rw [Host.textOf, decode_utf8_replace]
  rfl

/-- The runner hands the printed bytes on as text. -/
theorem PrintsRecords.exists_result {h : Host} {range file : String} {rs : List RawRecord}
    (hp : PrintsRecords h range file rs) (folder : Option Path) :
    ∃ ending errors, (ending = [] ∨ ending = [0x0a]) ∧
      (h.runner (Blame.command range file) folder).result
        = .ok ⟨0, some (String.ofList (unifyLineEnds (replaced (printedBytes rs ++ ending)))),
            errors⟩ := by
  obtain ⟨git, ending, errors, hgit, hending, hanswer⟩ := hp
  refine ⟨ending, some (String.ofList (unifyLineEnds (replaced errors))), hending, ?_⟩
  have hlocate : h.locate folder "git" = .ok git := by
    rw [Host.locate_of_not_isLocated (by decide), hgit]
    rfl
  have hattempt : (h.attempt { folder } (Blame.command range file)).2
      = .ok ⟨0, some (String.ofList (unifyLineEnds (replaced (printedBytes rs ++ ending)))),
          some (String.ofList (unifyLineEnds (replaced errors)))⟩ := by
    have hanswer : h.answer (git :: ["blame", "--line-porcelain", range, "--", file])
        = .finished 0 (printedBytes rs ++ ending) errors := hanswer
    simp [Host.attempt, Blame.command, hlocate, hanswer, Host.finished, textOf_replace]
  show ((h.attempt { folder } (Blame.command range file)).2).mapError _ = _
  rw [hattempt]
  rfl

/-- **What the headers tell is what is read**, whatever else is printed. -/
theorem result_blame_of_printsRecords {h : Host} {range file : String} {rs : List RawRecord}
    (hp : PrintsRecords h range file rs) (folder : Option Path) :
    (Blame.blame h.runner folder range file).result = .ok (told (rs.map RawRecord.header)) := by
  obtain ⟨ending, errors, hending, hresult⟩ := hp.exists_result folder
  have hreadable : ∀ x ∈ rs.map fun r => r.header.read, x.2.length ≤ longest := by
    intro x hx
    obtain ⟨r, -, rfl⟩ := List.mem_map.1 hx
    rw [Header.read, Numeral.values, List.length_map]
    exact r.header.length_line_le
  rw [result_blame_of_output hresult, headersIn_printedBytes rs hending,
    foldlM_enter_of_readable hreadable, told, List.map_map, List.map_map]
  rfl

/-- **Bytes that are no text do not disturb provenance.** When a host prints raw records, whatever
bytes stand in their texts, the provenance is had, and it is what the headers tell. So two hosts
that print the same headers give the same provenance. -/
theorem blame_undecodable (h : Host) (folder : Option Path) (range file : String)
    (rs : List RawRecord) (printed : PrintsRecords h range file rs) :
    (Blame.blame h.runner folder range file).result = .ok (told (rs.map RawRecord.header)) ∧
      ∀ (h' : Host) (folder' : Option Path) (range' file' : String) (rs' : List RawRecord),
        PrintsRecords h' range' file' rs' →
        rs'.map RawRecord.header = rs.map RawRecord.header →
          (Blame.blame h'.runner folder' range' file').result
            = (Blame.blame h.runner folder range file).result := by
  have hresult := result_blame_of_printsRecords printed folder
  refine ⟨hresult, ?_⟩
  intro h' folder' range' file' rs' printed' hheaders
  rw [result_blame_of_printsRecords printed' folder', hheaders, hresult]

/-- A file of two lines in another encoding: its author's name and its second line end in the middle
of a sequence, and its first line ends in a byte that begins one and a carriage return. -/
def latinRecords : List RawRecord := [
  { header := firstHeader 'a' (by decide)
    data := [{
      keyword := .author
      text :=
        ⟨[0x20, 0x52, 0x6e, 0xe2, 0x82], not_mem_of_all (by decide), breaks_of_all (by decide)⟩
      return_not_mem := not_mem_of_all (by decide) }]
    content :=
      ⟨[0x63, 0x61, 0x66, 0xe9, 0x0d], not_mem_of_all (by decide), breaks_of_all (by decide)⟩
    return_not_mem := not_mem_of_all (by decide) },
  { header := { firstHeader 'c' (by decide) with
      line := ⟨[⟨2, by decide⟩], List.cons_ne_nil _ _⟩
      length_line_le := (firstHeader 'c' (by decide)).length_line_le }
    data := []
    content := ⟨[0x80, 0xff, 0xf0, 0x9f], not_mem_of_all (by decide), breaks_of_all (by decide)⟩
    return_not_mem := not_mem_of_all (by decide) }]

/-- A host that prints the two lines. -/
def latinHost : Host where
  executables := [("git", "/bin/git")]
  answer _ := .finished 0 (printedBytes latinRecords ++ [0x0a]) [0xff]

/-- Sequences that are cut short swallow neither the line feed nor the header behind them. -/
theorem blame_undecodable_latin :
    PrintsRecords latinHost "a.." "a.php" latinRecords ∧
      (Blame.blame latinHost.runner none "a.." "a.php").result
        = .ok [(1, "aaaaaaa"), (2, "ccccccc")] := by
  have printed : PrintsRecords latinHost "a.." "a.php" latinRecords :=
    ⟨"/bin/git", [0x0a], [0xff], rfl, .inr rfl, rfl⟩
  exact ⟨printed, (blame_undecodable latinHost none "a.." "a.php" latinRecords printed).1⟩

end LintGate.Porcelain
