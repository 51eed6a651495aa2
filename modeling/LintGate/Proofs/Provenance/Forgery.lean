import LintGate.Proofs.Provenance.Records
import LintGate.Proofs.Table
import LintGate.Provenance.Blame

/-!
# What text can do to provenance

The records that the version control system prints tell the revision of each line. The provenance
that is read is made of the headers that are read, so it is that of the records and of the stray
headers of their texts together. A stray header of a line is undone by any later header of the same
line, and a stray header without a successor decides about its line: the texts do no harm exactly
when those tell what the records tell (`Harmless`). One whose line number has too many digits
spoils the whole reading.

So whoever writes a line can forge its provenance: content that holds a vertical tab, and behind it
the header of the line's own number with the revision at the start of the range, makes the line an
old one.
-/

namespace LintGate.Porcelain

open Text

/-! ## Reading headers -/

/-- The provenance with one more header put in. -/
def enter (p : Provenance) (h : String × List Nat) : Except Nat Provenance :=
  match readNumeral h.2 with
  | .ok n => .ok (p.put n h.1)
  | .error count => .error count

/-- The entry that a header makes. -/
def entryOf (h : String × List Nat) : Nat × String := (numberOf h.2, h.1)

/-- Reading puts in the headers that are read. -/
theorem read_lines (s : List Char) :
    read (lines (String.ofList s)) = (headersIn s).foldlM enter [] := by
  have hstep : ∀ ls : List (List Char), ∀ p : Provenance,
      (ls.map String.ofList).foldlM addLine p = (ls.filterMap headerOfPiece?).foldlM enter p := by
    intro ls
    induction ls with
    | nil => exact fun p => rfl
    | cons l ls ih =>
      intro p
      rw [List.map_cons, List.foldlM_cons, addLine]
      cases hl : headerOfLine? (String.ofList l) with
      | none =>
        rw [List.filterMap_cons_none (show headerOfPiece? l = none from hl)]
        exact ih p
      | some h =>
        rw [List.filterMap_cons_some (show headerOfPiece? l = some h from hl), List.foldlM_cons]
        show (enter p h >>= _) = _
        exact congrArg (enter p h >>= ·) (funext ih)
  unfold read lines
  rw [String.toList_ofList]
  exact hstep _ _

theorem enter_of_readable {h : String × List Nat} (hh : h.2.length ≤ longest) (p : Provenance) :
    enter p h = .ok (p.put (entryOf h).1 (entryOf h).2) := by
  rw [enter, readNumeral_eq_ok_iff.2 ⟨hh, rfl⟩]
  rfl

/-- Headers with readable numbers are all put in. -/
theorem foldlM_enter_of_readable {hs : List (String × List Nat)}
    (h : ∀ x ∈ hs, x.2.length ≤ longest) :
    hs.foldlM enter [] = .ok (Table.ofEntries (hs.map entryOf)) := by
  -- what has been put in already changes from header to header
  have hfold : ∀ p : Provenance,
      hs.foldlM enter p = .ok ((hs.map entryOf).foldl (fun t e => t.put e.1 e.2) p) := by
    induction hs with
    | nil => exact fun p => rfl
    | cons x hs ih =>
      intro p
      rw [List.foldlM_cons, enter_of_readable (h x List.mem_cons_self)]
      exact ih (fun y hy => h y (List.mem_cons_of_mem _ hy)) _
  exact hfold []

/-- The first header with an unreadable number ends the reading. -/
theorem foldlM_enter_of_unreadable {before : List (String × List Nat)}
    (h : ∀ x ∈ before, x.2.length ≤ longest) {x : String × List Nat}
    (hx : ¬x.2.length ≤ longest) (after : List (String × List Nat)) :
    (before ++ x :: after).foldlM enter [] = .error x.2.length := by
  rw [List.foldlM_append, foldlM_enter_of_readable h]
  show (enter _ x >>= _) = _
  rw [enter, readNumeral, if_neg hx]
  rfl

/-! ## Own and stray headers -/

/-- **A header that was read.** -/
structure Reading where
  /-- It is the header of a record, and no stray one. -/
  own : Bool
  /-- Its revision. -/
  revision : String
  /-- The digits of its line. -/
  digits : List Nat

namespace Reading

/-- The line. -/
def line (x : Reading) : Nat := numberOf x.digits

/-- The line can be read. -/
def IsReadable (x : Reading) : Prop := x.digits.length ≤ longest

/-- The header, as it was read. -/
def header (x : Reading) : String × List Nat := (x.revision, x.digits)

/-- The entry that is made. -/
def entry (x : Reading) : Nat × String := (x.line, x.revision)

/-- Readings that can be read have readable headers. -/
theorem length_le_of_mem_headers {xs : List Reading} (hread : ∀ x ∈ xs, x.IsReadable) :
    ∀ h ∈ xs.map header, h.2.length ≤ longest := by
  intro h hh
  obtain ⟨x, hx, rfl⟩ := List.mem_map.1 hh
  exact hread x hx

end Reading

/-- What is read in a record. -/
def Record.readings (r : Record) : List Reading :=
  ⟨true, r.header.read.1, r.header.read.2⟩ :: r.strays.map fun h => ⟨false, h.1, h.2⟩

/-- **What is read in printed records.** -/
def readings (rs : List Record) : List Reading := rs.flatMap Record.readings

/-- What a record tells: the revision of its line. -/
def Record.entry (r : Record) : Nat × String :=
  (r.header.line.value, String.ofList r.header.revision)

/-- **What the records tell**: the revision of each line, the last record of the line taken. -/
def recorded (rs : List Record) : Provenance := Table.ofEntries (rs.map Record.entry)

/-- **The texts of the records do no harm.** -/
structure Harmless (rs : List Record) : Prop where
  /-- Every stray header can be read. -/
  readable : ∀ x ∈ readings rs, x.own = false → x.IsReadable
  /-- A stray header whose line is not named again tells what the records tell. -/
  agrees : ∀ before x after, readings rs = before ++ x :: after → x.own = false →
    (∀ y ∈ after, y.line ≠ x.line) → (recorded rs).get? x.line = some x.revision

theorem headers_eq_map_readings (rs : List Record) :
    rs.flatMap Record.headers = (readings rs).map Reading.header := by
  have hrecord : ∀ r : Record, r.headers = r.readings.map Reading.header := by
    intro r
    unfold Record.headers Record.readings
    rw [List.map_cons, List.map_map]
    exact congrArg (r.header.read :: ·) (List.map_id _).symm
  rw [readings, List.map_flatMap]
  exact congrArg (rs.flatMap ·) (funext hrecord)

/-- What the records tell is what their own headers tell. -/
theorem recorded_eq (rs : List Record) :
    recorded rs = Table.ofEntries (((readings rs).filter Reading.own).map Reading.entry) := by
  have hstrays : ∀ hs : List (String × List Nat),
      (hs.map fun h => (⟨false, h.1, h.2⟩ : Reading)).filter Reading.own = [] := by
    intro hs
    rw [List.filter_eq_nil_iff]
    intro x hx
    obtain ⟨h, -, rfl⟩ := List.mem_map.1 hx
    exact Bool.false_ne_true
  have howns : ((readings rs).filter Reading.own).map Reading.entry = rs.map Record.entry := by
    induction rs with
    | nil => rfl
    | cons r rs ih =>
      rw [readings] at ih
      rw [readings, List.flatMap_cons, List.filter_append, List.map_append, ih, Record.readings,
        List.filter_cons_of_pos rfl, hstrays]
      rfl
  rw [recorded, howns]

/-- Own headers can be read. -/
theorem isReadable_of_own {rs : List Record} {x : Reading} (hx : x ∈ readings rs)
    (hown : x.own = true) : x.IsReadable := by
  obtain ⟨r, -, hr⟩ := List.mem_flatMap.1 hx
  rcases List.mem_cons.1 hr with rfl | hr
  · unfold Reading.IsReadable
    rw [Header.read, Numeral.values, List.length_map]
    exact r.header.length_line_le
  · obtain ⟨h, -, rfl⟩ := List.mem_map.1 hr
    exact absurd hown Bool.false_ne_true

/-- **When stray headers change nothing.** The table that all readings make has the values of the
one that the own readings make exactly when each stray reading whose line is not named again has
the own value of its line. -/
theorem get?_entries_iff (xs : List Reading) :
    (∀ n, (Table.ofEntries (xs.map Reading.entry)).get? n
        = (Table.ofEntries ((xs.filter Reading.own).map Reading.entry)).get? n) ↔
      ∀ before x after, xs = before ++ x :: after → x.own = false →
        (∀ y ∈ after, y.line ≠ x.line) →
          (Table.ofEntries ((xs.filter Reading.own).map Reading.entry)).get? x.line
            = some x.revision := by
  have hlast : ∀ (before : List Reading) (x : Reading) (after : List Reading),
      (∀ y ∈ after, y.line ≠ x.line) →
        (Table.ofEntries ((before ++ x :: after).map Reading.entry)).get? x.line
          = some x.revision := by
    intro before x after hafter
    rw [List.map_append, List.map_cons]
    refine Table.get?_ofEntries_of_last (fun e he => ?_) _ _
    obtain ⟨y, hy, rfl⟩ := List.mem_map.1 he
    exact hafter y hy
  constructor
  · rintro hsame before x after rfl - hafter
    rw [← hsame]
    exact hlast before x after hafter
  · intro hagrees n
    rcases exists_last_or_forall_not (fun x : Reading => x.line = n) xs with
      ⟨before, x, after, rfl, rfl, hafter⟩ | hnone
    · rw [hlast before x after hafter]
      cases hown : x.own with
      | false => exact (hagrees before x after rfl hown hafter).symm
      | true =>
        -- the last reading of the line is an own one, so it is also the last own one
        rw [List.filter_append, List.filter_cons_of_pos hown]
        exact (hlast _ x _ fun y hy => hafter y (List.mem_filter.1 hy).1).symm
    · have hentries : ∀ ys : List Reading, ys ⊆ xs → ∀ e ∈ ys.map Reading.entry, e.1 ≠ n := by
        intro ys hys e he
        obtain ⟨y, hy, rfl⟩ := List.mem_map.1 he
        exact hnone y (hys hy)
      rw [Table.get?_ofEntries_eq_none (hentries xs (List.Subset.refl xs)),
        Table.get?_ofEntries_eq_none (hentries _ fun y hy => (List.mem_filter.1 hy).1)]

/-! ## Texts without stray headers -/

/-- A text that has no break but at its end has no stray headers. -/
theorem strays_of_unbroken_dropLast {t : Inline} (h : Unbroken t.chars.dropLast) :
    strays t = [] := by
  have hsingle : ∀ c : Char, (linesOf [c]).tail = [] := by
    intro c
    cases hc : isBreak c with
    | true => rw [linesOf_cons_break hc (by simp)]; simp
    | false => rw [linesOf_cons hc]; simp
  have htail : (linesOf t.chars).tail = [] := by
    by_cases hnil : t.chars = []
    · rw [hnil, linesOf_nil]
      rfl
    · rw [← List.dropLast_concat_getLast hnil]
      by_cases hfirst : t.chars.dropLast = []
      · rw [hfirst]
        exact hsingle _
      · rw [linesOf_append h hfirst]
        exact hsingle _
  rw [strays, htail]
  rfl

/-- **No text of the record has a break** but at its end. -/
def Record.IsPlain (r : Record) : Prop :=
  (∀ d ∈ r.data, Unbroken d.text.chars.dropLast) ∧ Unbroken r.content.chars.dropLast

/-- A plain record has no stray headers. -/
theorem Record.IsPlain.strays_eq {r : Record} (h : r.IsPlain) : r.strays = [] := by
  have hdata : r.data.flatMap (fun d => Porcelain.strays d.text) = [] := by
    rw [List.flatMap_eq_nil_iff]
    exact fun d hd => strays_of_unbroken_dropLast (h.1 d hd)
  rw [strays, hdata, strays_of_unbroken_dropLast h.2, List.append_nil]

theorem Record.IsPlain.readings_eq {r : Record} (h : r.IsPlain) :
    r.readings = [⟨true, r.header.read.1, r.header.read.2⟩] := by
  rw [readings, h.strays_eq]
  rfl

/-- In plain records every header that is read is a record's own. -/
theorem own_of_isPlain {rs : List Record} (h : ∀ r ∈ rs, r.IsPlain) :
    ∀ x ∈ readings rs, x.own = true := by
  intro x hx
  obtain ⟨r, hr, hxr⟩ := List.mem_flatMap.1 hx
  rw [(h r hr).readings_eq, List.mem_singleton] at hxr
  rw [hxr]

/-! ## Provenance that is asked for -/

variable {run : Runner} {folder : Option Path} {range file : String} {rs : List Record}
  {errors : Option String}

/-- Whoever asks for provenance puts in what is read in the printed text. -/
theorem result_blame_of_output {s : List Char}
    (h : (run (Blame.command range file) folder).result
      = .ok ⟨0, some (String.ofList s), errors⟩) :
    (Blame.blame run folder range file).result
      = ((headersIn s).foldlM enter []).mapError Fault.numeral := by
  unfold Blame.blame
  rw [Attempt.bind_of_ok h]
  dsimp only [Attempt.ofResult]
  rw [Blame.provenanceOf, if_pos rfl, Finished.outputText, Option.getD_some, read_lines]

/-- Of printed records, what is read is put in. -/
theorem result_blame
    (h : (run (Blame.command range file) folder).result
      = .ok ⟨0, some (String.ofList (printed rs)), errors⟩) :
    (Blame.blame run folder range file).result
      = (((readings rs).map Reading.header).foldlM enter []).mapError Fault.numeral := by
  rw [result_blame_of_output h, headersIn_printed, headers_eq_map_readings]

/-- If every reading can be read, the provenance is that of all of them. -/
theorem result_blame_of_readable
    (h : (run (Blame.command range file) folder).result
      = .ok ⟨0, some (String.ofList (printed rs)), errors⟩)
    (hread : ∀ x ∈ readings rs, x.IsReadable) :
    (Blame.blame run folder range file).result
      = .ok (Table.ofEntries ((readings rs).map Reading.entry)) := by
  rw [result_blame h, foldlM_enter_of_readable (Reading.length_le_of_mem_headers hread),
    List.map_map]
  rfl

/-- The first reading that cannot be read is a fault. -/
theorem result_blame_of_unreadable
    (h : (run (Blame.command range file) folder).result
      = .ok ⟨0, some (String.ofList (printed rs)), errors⟩)
    {before after : List Reading} {x : Reading} (hsplit : readings rs = before ++ x :: after)
    (hbefore : ∀ y ∈ before, y.IsReadable) (hx : ¬x.IsReadable) :
    (Blame.blame run folder range file).result = .error (.numeral x.digits.length) := by
  have hnumbers := Reading.length_le_of_mem_headers hbefore
  rw [result_blame h, hsplit, List.map_append, List.map_cons,
    foldlM_enter_of_unreadable hnumbers (x := x.header) hx]
  rfl

/-- **What the records tell is what is read exactly when their texts do no harm.** In any case all
headers are put in that are read, stray ones too, until one cannot be read; and texts that have no
break but at their ends do no harm. -/
theorem blame_printed_iff
    (run : Runner) (folder : Option Path) (range file : String) (errors : Option String)
    (rs : List Record)
    (answered : (run (Blame.command range file) folder).result
      = .ok ⟨0, some (String.ofList (printed rs)), errors⟩) :
    ((∃ p, (Blame.blame run folder range file).result = .ok p ∧
        ∀ n, p.get? n = (recorded rs).get? n) ↔ Harmless rs) ∧
      ((∀ x ∈ readings rs, x.IsReadable) →
        (Blame.blame run folder range file).result
          = .ok (Table.ofEntries ((readings rs).map Reading.entry))) ∧
      (∀ before x after, readings rs = before ++ x :: after → (∀ y ∈ before, y.IsReadable) →
        ¬x.IsReadable →
          (Blame.blame run folder range file).result = .error (.numeral x.digits.length)) ∧
      ((∀ r ∈ rs, r.IsPlain) →
        (Blame.blame run folder range file).result = .ok (recorded rs)) := by
  refine ⟨⟨?_, ?_⟩, result_blame_of_readable answered, ?_, ?_⟩
  · rintro ⟨p, hp, hsame⟩
    have hread : ∀ x ∈ readings rs, x.IsReadable := by
      rcases exists_last_or_forall_not (fun x : Reading => ¬x.IsReadable) (readings rs).reverse with
        ⟨after, x, before, hsplit, hx, hbefore⟩ | hall
      · -- the first one that cannot be read would be a fault
        have hreadings : readings rs = before.reverse ++ x :: after.reverse := by
          rw [← List.reverse_reverse (readings rs), hsplit]
          simp
        have hfault := result_blame_of_unreadable answered hreadings
          (fun y hy => not_not.1 (hbefore y (List.mem_reverse.1 hy))) hx
        rw [hp] at hfault
        exact absurd hfault (fun h => by cases h)
      · exact fun x hx => not_not.1 (hall x (List.mem_reverse.2 hx))
    rw [result_blame_of_readable answered hread] at hp
    cases hp
    refine ⟨fun x hx _ => hread x hx, ?_⟩
    rw [recorded_eq] at hsame ⊢
    exact (get?_entries_iff (readings rs)).1 hsame
  · rintro ⟨hstray, hagrees⟩
    have hread : ∀ x ∈ readings rs, x.IsReadable := by
      intro x hx
      cases hown : x.own with
      | false => exact hstray x hx hown
      | true => exact isReadable_of_own hx hown
    refine ⟨_, result_blame_of_readable answered hread, ?_⟩
    rw [recorded_eq] at hagrees ⊢
    exact (get?_entries_iff (readings rs)).2 hagrees
  · exact fun before x after hsplit hbefore hx =>
      result_blame_of_unreadable answered hsplit hbefore hx
  · intro hplain
    have hown := own_of_isPlain hplain
    have hread : ∀ x ∈ readings rs, x.IsReadable := fun x hx => isReadable_of_own hx (hown x hx)
    rw [result_blame_of_readable answered hread, recorded_eq, List.filter_eq_self.2 hown]

/-! ## A forged line -/

/-- The header of the first line of a file, with seven times the same digit for a revision. -/
def firstHeader (digit : Char) (hdigit : isRevisionDigit digit = true) : Header where
  revision := List.replicate 7 digit
  isRevisionDigit_of_mem := fun _ hc => (List.eq_of_mem_replicate hc).symm ▸ hdigit
  seven_le_length := Nat.le_of_eq List.length_replicate.symm
  length_le := by rw [List.length_replicate]; decide
  original := ⟨[1], List.cons_ne_nil _ _⟩
  line := ⟨[1], List.cons_ne_nil _ _⟩
  length_line_le := show 1 ≤ longest by decide
  size := none

/-- A file with one line, which holds a content. -/
def oneLine (content : Inline) : List Record :=
  [{ header := firstHeader 'b' (by decide)
     data := [⟨.summary, ⟨" Add a line".toList, by decide⟩⟩]
     content }]

/-- A header of the same line, as content. -/
def decoy : Inline where
  chars := "aaaaaaa 1 1".toList
  not_mem := by decide

/-- The same header behind a vertical tab. -/
def forgery : Inline where
  chars := "echo 1; // \x0baaaaaaa 1 1".toList
  not_mem := by decide

/-- A runner whose commands print records. -/
def printing (rs : List Record) : Runner :=
  fun _ _ => .done ⟨0, some (String.ofList (printed rs)), none⟩

/-- Content that reads like a header is no header while it has no break. -/
theorem blame_printed_iff_decoy :
    (printing (oneLine decoy) (Blame.command "a..b" "a.php") none).result
        = .ok ⟨0, some (String.ofList (printed (oneLine decoy))), none⟩ ∧
      (Blame.blame (printing (oneLine decoy)) none "a..b" "a.php").result
        = .ok [(1, "bbbbbbb")] := by
  obtain ⟨-, -, -, hplain⟩ :=
    blame_printed_iff (printing (oneLine decoy)) none "a..b" "a.php" none (oneLine decoy) rfl
  refine ⟨rfl, ?_⟩
  rw [hplain ?_]
  · rfl
  · intro r hr
    rw [List.mem_singleton.1 hr]
    refine ⟨fun d hd => ?_, by decide⟩
    rw [List.mem_singleton.1 hd]
    decide

/-- **Content can forge the provenance of its line.** -/
theorem blame_forged :
    (Blame.blame (printing (oneLine forgery)) none "a..b" "a.php").result
        = .ok [(1, "aaaaaaa")] ∧
      recorded (oneLine forgery) = [(1, "bbbbbbb")] ∧
      ¬∃ p, (Blame.blame (printing (oneLine forgery)) none "a..b" "a.php").result = .ok p ∧
        ∀ n, p.get? n = (recorded (oneLine forgery)).get? n := by
  have hread : (Blame.blame (printing (oneLine forgery)) none "a..b" "a.php").result
      = .ok [(1, "aaaaaaa")] := by
    rw [result_blame_of_readable rfl]
    · rfl
    · unfold Reading.IsReadable
      decide
  refine ⟨hread, rfl, ?_⟩
  rintro ⟨p, hp, hsame⟩
  rw [hread] at hp
  cases hp
  exact absurd (hsame 1) (by decide)

end LintGate.Porcelain
