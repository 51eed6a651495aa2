import LintGate.Proofs.Text.Lines
import LintGate.Provenance.Porcelain

/-!
# Records of line provenance

What the version control system prints about a file is a list of records, one for each line of the
file. A *record* is a header, some lines of commit data that begin with a keyword, and the content
of the line behind a tab. The texts behind keywords and tabs are written by whoever wrote the
commits. They hold no line feed, and anything else may stand in them.

Reading does not see records. It sees the lines that the printed text is cut into, and these are
more than the lines that were printed wherever a text holds a break that is no line feed. The
pieces behind such a break do not begin with the keyword or the tab of their line any more, and one
of them may read as a header: it is a *stray* header. The headers that are read are exactly those
of the records and the stray ones of their texts, in the order in which they stand
(`headersIn_printed`).
-/

namespace LintGate.Porcelain

open Text

/-! ## What is printed -/

/-- **A numeral**: one decimal digit or more. -/
structure Numeral where
  /-- The digits, the most significant first. -/
  digits : List (Fin 10)
  /-- There are some. -/
  digits_ne_nil : digits ≠ []

namespace Numeral

/-- The digits as numbers. -/
def values (n : Numeral) : List Nat := n.digits.map Fin.val

/-- The number that a numeral writes. -/
def value (n : Numeral) : Nat := numberOf n.values

/-- A numeral as it is printed. -/
def chars (n : Numeral) : List Char := digitChars n.digits

end Numeral

/-- **The header of a record.** -/
structure Header where
  /-- The revision. -/
  revision : List Char
  /-- It is hexadecimal, -/
  isRevisionDigit_of_mem : ∀ c ∈ revision, isRevisionDigit c = true
  /-- not too short -/
  seven_le_length : 7 ≤ revision.length
  /-- and not too long. -/
  length_le : revision.length ≤ 64
  /-- The line in the file as the revision left it. -/
  original : Numeral
  /-- The line in the file as it is now. -/
  line : Numeral
  /-- Its number can be read. -/
  length_line_le : line.digits.length ≤ longest
  /-- The number of lines in the group that begins here. -/
  size : Option Numeral

namespace Header

/-- What stands behind the number of the line. -/
def sizeChars (h : Header) : List Char :=
  match h.size with
  | none => []
  | some n => ' ' :: n.chars

/-- A header as it is printed. -/
def chars (h : Header) : List Char :=
  h.revision ++ ' ' :: (h.original.chars ++ ' ' :: (h.line.chars ++ h.sizeChars))

end Header

/-- **Text without a line feed.** -/
structure Inline where
  /-- The characters. -/
  chars : List Char
  /-- No line feed is among them. -/
  not_mem : '\n' ∉ chars

/-- **The keywords** that lines of commit data begin with. -/
inductive Keyword
  | author | authorMail | authorTime | authorZone
  | committer | committerMail | committerTime | committerZone
  | summary | previous | filename | boundary

/-- A keyword as it is printed. -/
def Keyword.chars : Keyword → List Char
  | author => "author".toList
  | authorMail => "author-mail".toList
  | authorTime => "author-time".toList
  | authorZone => "author-tz".toList
  | committer => "committer".toList
  | committerMail => "committer-mail".toList
  | committerTime => "committer-time".toList
  | committerZone => "committer-tz".toList
  | summary => "summary".toList
  | previous => "previous".toList
  | filename => "filename".toList
  | boundary => "boundary".toList

/-- **A line of commit data.** -/
structure DataLine where
  /-- Its keyword. -/
  keyword : Keyword
  /-- What stands behind the keyword. -/
  text : Inline

/-- A line of commit data as it is printed. -/
def DataLine.chars (d : DataLine) : List Char := d.keyword.chars ++ d.text.chars

/-- **A record**: what is printed about one line of a file. -/
structure Record where
  /-- Which line it is, and the revision that last touched it. -/
  header : Header
  /-- The commit data. -/
  data : List DataLine
  /-- The line itself. -/
  content : Inline

/-- The lines of a record as they are printed. -/
def Record.printedLines (r : Record) : List (List Char) :=
  r.header.chars :: (r.data.map DataLine.chars ++ ['\t' :: r.content.chars])

/-- **What is printed**: all lines of all records, joined by line feeds. -/
def printed (rs : List Record) : List Char :=
  ['\n'].intercalate (rs.flatMap Record.printedLines)

/-! ## What is read -/

/-- The header that a piece of text reads as. -/
def headerOfPiece? (l : List Char) : Option (String × List Nat) :=
  headerOfLine? (String.ofList l)

/-- **The headers that are read** in a text. -/
def headersIn (s : List Char) : List (String × List Nat) := (linesOf s).filterMap headerOfPiece?

/-- **The stray headers of a text**: the pieces behind a break that read as headers. -/
def strays (t : Inline) : List (String × List Nat) :=
  (linesOf t.chars).tail.filterMap headerOfPiece?

/-- The stray headers of a record are those of its texts. -/
def Record.strays (r : Record) : List (String × List Nat) :=
  r.data.flatMap (fun d => Porcelain.strays d.text) ++ Porcelain.strays r.content

/-- The header of a record, as it is read. -/
def Header.read (h : Header) : String × List Nat := (String.ofList h.revision, h.line.values)

@[simp] theorem headerOfPiece?_nil : headerOfPiece? [] = none := by decide

/-- Content reads as no header, whatever it says. -/
@[simp] theorem headerOfPiece?_tab (l : List Char) : headerOfPiece? ('\t' :: l) = none := by
  simp [headerOfPiece?, headerOfLine?]

/-- There is nothing to take off at the end of unbroken text. -/
theorem withoutLineEnd_of_unbroken {s : List Char} (h : Unbroken s) : withoutLineEnd s = s := by
  have hlast : s.reverse.dropWhile (fun c => c == '\r' || c == '\n') = s.reverse := by
    cases hs : s.reverse with
    | nil => rfl
    | cons c r =>
      have hc : isBreak c = false := h c (List.mem_reverse.1 (hs ▸ List.mem_cons_self))
      refine List.dropWhile_cons_of_neg fun hend => ?_
      rcases Bool.or_eq_true_iff.1 hend with he | he
      · rw [eq_of_beq he] at hc
        exact absurd hc (by decide)
      · rw [eq_of_beq he] at hc
        exact absurd hc (by decide)
  rw [withoutLineEnd, hlast, List.reverse_reverse]

/-- What stands before a line feed and what stands behind it are read apart. -/
theorem headersIn_append_lineFeed {s : List Char} (h : '\n' ∉ s) (r : List Char) :
    headersIn (s ++ '\n' :: r) = headersIn s ++ headersIn r := by
  obtain ⟨gap, hgap, hs⟩ := linesOf_append_lineFeed h r
  have hnone : gap.filterMap headerOfPiece? = [] := by
    rcases hgap with rfl | rfl
    · rfl
    · simp
  unfold headersIn
  rw [hs, List.filterMap_append, List.filterMap_append, hnone, List.append_nil]

/-- Lines that are joined by line feeds are read one by one. -/
theorem headersIn_intercalate {ls : List (List Char)} (h : ∀ l ∈ ls, '\n' ∉ l) :
    headersIn (['\n'].intercalate ls) = ls.flatMap headersIn := by
  induction ls with
  | nil => simp [headersIn]
  | cons l ls ih =>
    cases ls with
    | nil => simp
    | cons m ls =>
      have hrest := ih fun l hl => h l (List.mem_cons_of_mem _ hl)
      rw [List.intercalate_cons_cons, List.append_assoc, List.flatMap_cons, ← hrest]
      exact headersIn_append_lineFeed (h l List.mem_cons_self) _

/-- A line whose first piece is no header has only stray headers. -/
theorem headersIn_of_mark {k : List Char} (hk : k ≠ []) (hu : Unbroken k)
    (hmark : ∀ l, Unbroken l → headerOfPiece? (k ++ l) = none) (t : Inline) :
    headersIn (k ++ t.chars) = strays t := by
  have hfirst : Unbroken ((linesOf t.chars).headD []) := by
    cases hl : linesOf t.chars with
    | nil => exact unbroken_nil
    | cons l ls =>
      refine unbroken_of_mem_linesOf (s := t.chars) ?_
      rw [hl]
      exact List.mem_cons_self
  unfold headersIn
  rw [linesOf_append hu hk, List.filterMap_cons_none (hmark _ hfirst)]
  rfl

/-! ### Commit data and content -/

/-- A word is no beginning of a header when it leaves the hexadecimal digits too early. -/
theorem headerOfPiece?_of_word {k : List Char} (hk : Unbroken k)
    (hshort : (k.takeWhile isRevisionDigit).length < 7)
    (hstop : (k.takeWhile isRevisionDigit).length ≠ k.length) (l : List Char) (hl : Unbroken l) :
    headerOfPiece? (k ++ l) = none := by
  have hrevision : (k ++ l).takeWhile isRevisionDigit = k.takeWhile isRevisionDigit := by
    rw [List.takeWhile_append, if_neg hstop]
  have hguard : (guard (7 ≤ (k.takeWhile isRevisionDigit).length ∧
      (k.takeWhile isRevisionDigit).length ≤ 64) : Option Unit) = none :=
    if_neg fun h => Nat.not_le.2 hshort h.1
  have hnone : header? (k ++ l) = none := by
    unfold header?
    show (guard _ >>= _) = none
    rw [hrevision, hguard]
    rfl
  unfold headerOfPiece? headerOfLine?
  rw [String.toList_ofList]
  split
  · rfl
  · rw [withoutLineEnd_of_unbroken (unbroken_append.2 ⟨hk, hl⟩), hnone]

theorem Keyword.unbroken_chars (k : Keyword) : Unbroken k.chars := by
  cases k <;> decide

/-- No keyword stays within the hexadecimal digits for long. -/
theorem Keyword.leaves_digits (k : Keyword) :
    (k.chars.takeWhile isRevisionDigit).length < 7 ∧
      (k.chars.takeWhile isRevisionDigit).length ≠ k.chars.length := by
  cases k <;> decide

/-- **Commit data reads as its stray headers.** -/
theorem headersIn_dataLine (d : DataLine) : headersIn d.chars = strays d.text := by
  have hu := d.keyword.unbroken_chars
  obtain ⟨hshort, hstop⟩ := d.keyword.leaves_digits
  refine headersIn_of_mark ?_ hu (headerOfPiece?_of_word hu hshort hstop) d.text
  intro hnil
  rw [hnil] at hstop
  exact hstop rfl

/-- **Content reads as its stray headers.** -/
theorem headersIn_content (t : Inline) : headersIn ('\t' :: t.chars) = strays t := by
  have htab : Unbroken ['\t'] := by decide
  exact headersIn_of_mark (List.cons_ne_nil _ _) htab (fun l _ => headerOfPiece?_tab l) t

/-! ### Headers -/

namespace Numeral

theorem isBreak_digitChar : ∀ d : Fin 10, isBreak (digitChar d) = false := by decide

theorem unbroken_chars (n : Numeral) : Unbroken n.chars := by
  intro c hc
  obtain ⟨d, -, rfl⟩ := List.mem_map.1 hc
  exact isBreak_digitChar d

/-- **A numeral behind a blank is read back.** -/
theorem blankNumeral?_chars (n : Numeral) {r : List Char} (hr : ∀ c ∈ r.head?, digit? c = none) :
    blankNumeral? (' ' :: (n.chars ++ r)) = some (n.values, r) := by
  have hvalues : n.values ≠ [] := by simpa [values] using n.digits_ne_nil
  obtain ⟨d, ds, hds⟩ := List.exists_cons_of_ne_nil hvalues
  have hspan : spanDigits digit? (n.chars ++ r) = (n.values, r) :=
    spanDigits_digitChars digit?_digitChar n.digits hr
  rw [blankNumeral?, hspan, hds]

end Numeral

namespace Header

variable (h : Header)

theorem unbroken_sizeChars : Unbroken h.sizeChars := by
  unfold sizeChars
  split
  · exact unbroken_nil
  · exact unbroken_cons.2 ⟨by decide, Numeral.unbroken_chars _⟩

/-- The digits of a revision lie between the first digit and the last letter. -/
theorem range_of_isRevisionDigit {c : Char} (hc : isRevisionDigit c = true) :
    48 ≤ c.toNat ∧ c.toNat ≤ 102 := by
  simp only [isRevisionDigit, Char.isDigit, Bool.or_eq_true, Bool.and_eq_true,
    decide_eq_true_eq, ge_iff_le, UInt32.le_iff_toNat_le, Char.le_def, Char.toNat_val] at hc
  have hzero : '0'.toNat = 48 := rfl
  have hnine : '9'.toNat = 57 := rfl
  have ha : 'a'.toNat = 97 := rfl
  have hf : 'f'.toNat = 102 := rfl
  omega

theorem isBreak_of_isRevisionDigit {c : Char} (hc : isRevisionDigit c = true) :
    isBreak c = false := by
  have hrange := range_of_isRevisionDigit hc
  rw [← Bool.not_eq_true]
  intro hb
  simp only [isBreak, Bool.or_eq_true, Bool.and_eq_true, decide_eq_true_eq, beq_iff_eq] at hb
  omega

/-- A header is printed as one line. -/
theorem unbroken_chars : Unbroken h.chars := by
  have hrevision : Unbroken h.revision := fun c hc =>
    isBreak_of_isRevisionDigit (h.isRevisionDigit_of_mem c hc)
  unfold chars
  rw [unbroken_append, unbroken_cons, unbroken_append, unbroken_cons, unbroken_append]
  exact ⟨hrevision, by decide, h.original.unbroken_chars, by decide, h.line.unbroken_chars,
    h.unbroken_sizeChars⟩

theorem isGroupSize_sizeChars : isGroupSize h.sizeChars = true := by
  unfold sizeChars
  split
  · rfl
  · next n _ =>
    have hread := n.blankNumeral?_chars (r := []) (by simp)
    rw [List.append_nil] at hread
    simp [isGroupSize, hread]

/-- What stands behind the number of the line is no digit. -/
theorem digit?_of_mem_head?_sizeChars : ∀ c ∈ h.sizeChars.head?, digit? c = none := by
  unfold sizeChars
  split
  · simp
  · simpa using (by decide : digit? ' ' = none)

/-- **A header is read back.** -/
theorem header?_chars : header? h.chars = some h.read := by
  have hblank : ∀ (r : List Char), ∀ c ∈ (' ' :: r).head?, digit? c = none := by
    intro r c hc
    rw [← Option.some.inj hc]
    decide
  have htake : h.chars.takeWhile isRevisionDigit = h.revision := by
    unfold chars
    rw [List.takeWhile_append_of_pos h.isRevisionDigit_of_mem,
      List.takeWhile_cons_of_neg (by decide),
      List.append_nil]
  have hdrop : h.chars.dropWhile isRevisionDigit
      = ' ' :: (h.original.chars ++ ' ' :: (h.line.chars ++ h.sizeChars)) := by
    unfold chars
    rw [List.dropWhile_append_of_pos h.isRevisionDigit_of_mem,
      List.dropWhile_cons_of_neg (by decide)]
  have horiginal := h.original.blankNumeral?_chars (hblank (h.line.chars ++ h.sizeChars))
  have hline := h.line.blankNumeral?_chars h.digit?_of_mem_head?_sizeChars
  have hlength : (guard (7 ≤ h.revision.length ∧ h.revision.length ≤ 64) : Option Unit) = some () :=
    if_pos ⟨h.seven_le_length, h.length_le⟩
  have hsize : (guard (isGroupSize h.sizeChars = true) : Option Unit) = some () :=
    if_pos h.isGroupSize_sizeChars
  unfold header?
  show ((guard _ : Option Unit) >>= fun _ => blankNumeral? _ >>= _) = _
  rw [htake, hdrop, hlength, horiginal]
  show (blankNumeral? (' ' :: (h.line.chars ++ h.sizeChars)) >>= _) = _
  rw [hline]
  show ((guard (isGroupSize h.sizeChars = true) : Option Unit) >>= _) = _
  rw [hsize]
  rfl

/-- A printed header reads as itself. -/
theorem headersIn_chars : headersIn h.chars = [h.read] := by
  obtain ⟨c, r, hc⟩ : ∃ c r, h.revision = c :: r :=
    List.exists_cons_of_length_pos (Nat.lt_of_lt_of_le (by decide) h.seven_le_length)
  have htab : ∀ t, h.chars ≠ '\t' :: t := by
    intro t ht
    have hdigit := h.isRevisionDigit_of_mem c (hc ▸ List.mem_cons_self)
    rw [chars, hc, List.cons_append, List.cons.injEq] at ht
    rw [ht.1] at hdigit
    exact absurd hdigit (by decide)
  have hpiece : headerOfPiece? h.chars = some h.read := by
    unfold headerOfPiece? headerOfLine?
    rw [String.toList_ofList]
    split
    · next t ht => exact absurd ht (htab t)
    · rw [withoutLineEnd_of_unbroken h.unbroken_chars, h.header?_chars]
  have hne : h.chars ≠ [] := by
    rw [chars, hc]
    exact List.cons_ne_nil _ _
  rw [headersIn, linesOf_of_unbroken h.unbroken_chars hne, List.filterMap_cons_some hpiece]
  rfl

end Header

/-! ### Records -/

/-- The headers that are read in a record: its own, and then its stray ones. -/
def Record.headers (r : Record) : List (String × List Nat) := r.header.read :: r.strays

/-- No printed line holds a line feed. -/
theorem Record.not_mem_of_mem_printedLines (r : Record) : ∀ l ∈ r.printedLines, '\n' ∉ l := by
  have hfeed : ∀ k : List Char, Unbroken k → '\n' ∉ k := by
    intro k hk hmem
    exact absurd (hk _ hmem) (by decide)
  intro l hl
  rcases List.mem_cons.1 hl with rfl | hl
  · exact hfeed _ r.header.unbroken_chars
  · rcases List.mem_append.1 hl with hl | hl
    · obtain ⟨d, -, rfl⟩ := List.mem_map.1 hl
      rw [DataLine.chars, List.mem_append, not_or]
      exact ⟨hfeed _ d.keyword.unbroken_chars, d.text.not_mem⟩
    · rw [List.mem_singleton.1 hl, List.mem_cons, not_or]
      exact ⟨by decide, r.content.not_mem⟩

/-- The lines of a record read as its header and its stray headers. -/
theorem Record.flatMap_printedLines (r : Record) :
    r.printedLines.flatMap headersIn = r.headers := by
  have hdata : (fun d : DataLine => headersIn d.chars) = fun d => Porcelain.strays d.text :=
    funext headersIn_dataLine
  rw [printedLines, List.flatMap_cons, List.flatMap_append, List.flatMap_map, hdata,
    List.flatMap_singleton, r.header.headersIn_chars, headersIn_content]
  rfl

/-- **What is read in printed records**: the header of each record, and behind it the stray headers
of its texts. -/
theorem headersIn_printed (rs : List Record) :
    headersIn (printed rs) = rs.flatMap Record.headers := by
  have hlines : ∀ l ∈ rs.flatMap Record.printedLines, '\n' ∉ l := by
    intro l hl
    obtain ⟨r, -, hr⟩ := List.mem_flatMap.1 hl
    exact r.not_mem_of_mem_printedLines l hr
  rw [printed, headersIn_intercalate hlines, List.flatMap_assoc]
  exact congrArg (rs.flatMap ·) (funext Record.flatMap_printedLines)

end LintGate.Porcelain
