import LintGate.Changes
import LintGate.Proofs.Text.Lines
import LintGate.Proofs.Text.Trimming

/-!
# The files a change touches, against the names that were listed

The list of changed files is printed for people as much as for programs. A name is printed as it
is as long as all its characters are *plain* ones, blanks among them. Any other name is printed
between quotes, its control characters, quotes and backslashes escaped and every byte beyond ASCII
written in octal. So every name takes exactly one line (`lines_listing`), and none is lost there.

What is read is each line without the blanks around it. That takes the blanks at its ends from a
plain name, and it leaves a name between quotes as it was printed, quotes and escapes included:
nothing undoes the quoting. Either way another name is looked for than the one that changed. It
need not be there, and then the changed file is not linted and nothing is said about it; or
it is there, and a file is linted that did not change. A name comes through unaltered exactly when
it is plain, begins and ends with no blank and is not empty (`trimmed?_printed_iff`), and the
changed files are found on every host exactly when all the names are such (`discover_listed`).
-/

namespace LintGate.Changes

/-! ## Names as they are printed -/

/-- **A plain character**: printable ASCII, but neither a double quote nor a backslash. -/
def isPlain (c : Char) : Bool := ' ' ≤ c && c ≤ '~' && c != '"' && c != '\\'

/-- The letter that stands for a byte behind a backslash. Quotes and backslashes stand for
themselves there. -/
def escapeLetter? : Nat → Option Char
  | 7 => some 'a'
  | 8 => some 'b'
  | 9 => some 't'
  | 10 => some 'n'
  | 11 => some 'v'
  | 12 => some 'f'
  | 13 => some 'r'
  | 34 => some '"'
  | 92 => some '\\'
  | _ => none

/-- **A byte between quotes**: a plain character, a letter behind a backslash or three octal
digits. -/
def quotedByte (b : UInt8) : List Char :=
  match escapeLetter? b.toNat with
  | some c => ['\\', c]
  | none =>
    if isPlain (.ofUInt8 b) then [.ofUInt8 b]
    else ['\\', Nat.digitChar (b.toNat / 64), Nat.digitChar (b.toNat / 8 % 8),
      Nat.digitChar (b.toNat % 8)]

/-- The bytes of a text between quotes. -/
def quotedBytes (s : List Char) : List Char := (s.flatMap String.utf8EncodeChar).flatMap quotedByte

/-- **A name as it is printed**: as it is when it is plain, and quoted otherwise. -/
def printed (name : String) : String :=
  if name.toList.all isPlain then name
  else String.ofList ('"' :: quotedBytes name.toList ++ ['"'])

/-- **The printed list of some names**, one on each line. -/
def listing (names : List String) : String :=
  String.ofList (names.flatMap fun n => (printed n).toList ++ ['\n'])

/-- Plain characters are no breaks. -/
theorem isBreak_of_isPlain {c : Char} (h : isPlain c = true) : Text.isBreak c = false := by
  simp only [isPlain, Bool.and_eq_true, decide_eq_true_eq, Char.le_def, UInt32.le_iff_toNat_le] at h
  obtain ⟨⟨⟨hlow, hhigh⟩, -⟩, -⟩ := h
  change 32 ≤ c.toNat at hlow
  change c.toNat ≤ 126 at hhigh
  simp only [Text.isBreak, Bool.or_eq_false_iff, Bool.and_eq_false_iff, decide_eq_false_iff_not,
    beq_eq_false_iff_ne]
  omega

/-- Octal digits are no breaks. -/
theorem isBreak_digitChar {d : Nat} (h : d < 8) : Text.isBreak (Nat.digitChar d) = false := by
  revert d
  decide

/-- **A byte between quotes breaks no line.** -/
theorem unbroken_quotedByte (b : UInt8) : Text.Unbroken (quotedByte b) := by
  unfold quotedByte
  split
  next c hc =>
    have hletter : Text.isBreak c = false := by
      unfold escapeLetter? at hc
      split at hc <;> cases hc <;> rfl
    simp [hletter]
    decide
  next =>
    split
    next hplain => simp [isBreak_of_isPlain hplain]
    next =>
      have hb : b.toNat < 256 := b.toNat_lt
      simp only [Text.unbroken_cons, Text.unbroken_nil, and_true]
      exact ⟨by decide, isBreak_digitChar (by omega), isBreak_digitChar (by omega),
        isBreak_digitChar (by omega)⟩

/-- **A printed name is unbroken**, whatever the name is. -/
theorem unbroken_printed (name : String) : Text.Unbroken (printed name).toList := by
  unfold printed
  split
  next hplain =>
    intro c hc
    exact isBreak_of_isPlain (List.all_eq_true.1 hplain c hc)
  next =>
    have hquoted : Text.Unbroken (quotedBytes name.toList) := by
      intro c hc
      obtain ⟨b, -, hcb⟩ := List.mem_flatMap.1 hc
      exact unbroken_quotedByte b c hcb
    simp [hquoted]
    decide

/-- **The lines of the list are the printed names**, one for each name. -/
theorem lines_listing (names : List String) : Text.lines (listing names) = names.map printed := by
  have hlines : ∀ ns : List String,
      Text.linesOf (ns.flatMap fun n => (printed n).toList ++ ['\n']) =
        ns.map fun n => (printed n).toList := by
    intro ns
    induction ns with
    | nil => simp
    | cons n ns ih =>
      rw [List.flatMap_cons, List.append_assoc, List.singleton_append, List.map_cons, ← ih]
      exact Text.linesOf_line (unbroken_printed n) _
  simp [Text.lines, listing, hlines]

/-! ## Names as they are read -/

/-- **A name that comes through unaltered**: it is plain and trimmed, and there is something of
it. -/
structure Unaltered (name : String) : Prop where
  /-- Its characters are plain ones. -/
  plain : ∀ c ∈ name.toList, isPlain c = true
  /-- There are some, -/
  ne_empty : name ≠ ""
  /-- and no blank is the first or the last of them. -/
  trimmed : Text.IsTrimmed name

/-- No character vanishes between quotes. -/
theorem length_le_quotedBytes (s : List Char) : s.length ≤ (quotedBytes s).length := by
  have hbyte : ∀ b : UInt8, quotedByte b ≠ [] := by
    intro b
    unfold quotedByte
    split
    · simp
    · split <;> simp
  have hchar : ∀ c : Char, quotedBytes [c] ≠ [] := by
    intro c hnil
    obtain ⟨b, bs, hbs⟩ := List.exists_cons_of_ne_nil (String.utf8EncodeChar_ne_nil (c := c))
    simp [quotedBytes, hbs, hbyte b] at hnil
  induction s with
  | nil => simp
  | cons c s ih =>
    have hcons : quotedBytes (c :: s) = quotedBytes [c] ++ quotedBytes s := by
      simp [quotedBytes]
    have hpos : 0 < (quotedBytes [c]).length := List.length_pos_iff.2 (hchar c)
    rw [hcons, List.length_append, List.length_cons]
    omega

/-- A quoted name is never the name itself: it is longer. -/
theorem quoted_ne (name : String) :
    String.ofList ('"' :: quotedBytes name.toList ++ ['"']) ≠ name := by
  intro h
  have hlength := congrArg (fun s : String => s.toList.length) h
  have hle := length_le_quotedBytes name.toList
  simp at hlength
  omega

/-- Quotes at its ends keep a text trimmed. -/
theorem isTrimmed_quoted (s : List Char) : Text.IsTrimmed (String.ofList ('"' :: s ++ ['"'])) := by
  have hquote : Text.isBlank '"' = false := by decide
  constructor
  · simp [hquote]
  · rw [String.toList_ofList, List.getLast?_concat]
    simp [hquote]

/-- **A name comes through exactly when it is an unaltered one.** -/
theorem trimmed?_printed_iff {name : String} :
    Text.trimmed? (printed name) = some name ↔ Unaltered name := by
  by_cases hplain : name.toList.all isPlain = true
  · rw [printed, if_pos hplain, Text.trimmed?_eq_some_self_iff]
    exact ⟨fun h => ⟨List.all_eq_true.1 hplain, h.1, h.2⟩, fun h => ⟨h.ne_empty, h.trimmed⟩⟩
  · rw [printed, if_neg hplain]
    refine ⟨fun h => ?_, fun h => absurd (List.all_eq_true.2 h.plain) hplain⟩
    -- what is read is the name with its quotes
    have hself := Text.trimmed?_eq_some_self_iff.2
      ⟨by simp [← String.toList_inj], isTrimmed_quoted (quotedBytes name.toList)⟩
    exact absurd (Option.some.inj (hself.symm.trans h)) (quoted_ne name)

/-! ## The changed files -/

/-- **A name to lint**: it matches a pattern, whole or by its last part, and leads to a regular file
under the root directory. -/
def Selected (h : Host) (root : Path) (patterns : List String) (name : String) : Prop :=
  (∃ p ∈ patterns, Text.Glob.matches p name = true ∨
    Text.Glob.matches p (Path.ofString name).name = true) ∧
  h.isFile (root.join (.ofString name)) = true

instance (h : Host) (root : Path) (patterns : List String) (name : String) :
    Decidable (Selected h root patterns name) := inferInstanceAs (Decidable (_ ∧ _))

/-- **What is found is selected among the names that are read.** -/
theorem discover_of_listed {run : Runner} {base : String} {root : Path} {names : List String}
    {errors : Option String}
    (hrun : (run (command base) (some root)).result = .ok ⟨0, some (listing names), errors⟩)
    (h : Host) (patterns : List String) :
    (discover h run base root patterns).result =
      .ok ((names.filterMap fun n => Text.trimmed? (printed n)).filter
        (Selected h root patterns ·)) := by
  have hselected : ∀ n, (isWanted patterns n && h.isFile (root.join (.ofString n))) =
      decide (Selected h root patterns n) := by
    intro n
    rw [Bool.eq_iff_iff, decide_eq_true_iff]
    simp [isWanted, Selected]
  rw [discover, Attempt.bind_of_ok (Attempt.result_passedOn_eq_ok_iff.2 hrun)]
  simp only [namesOf, Finished.outputText, Option.getD_some, if_true, lines_listing,
    List.filterMap_map, hselected]
  rfl

/-- The pattern of any name. -/
theorem matches_star (name : String) : Text.Glob.matches "*" name = true := by
  have hitems : Text.Glob.items "*".toList = [.star] := by decide
  rw [Text.Glob.matches_eq_accepts, hitems, Text.Glob.accepts]
  exact Text.Glob.someEnding_iff.2 ⟨name.toList, [], by simp, rfl⟩

/-- **A host with these files** under a root directory. -/
def hostWith (root : Path) (names : List String) : Host where
  files := names.map fun n => ((root.join (.ofString n)).toString, .bytes [])

theorem isFile_hostWith {root : Path} {names : List String} {n : String} (hn : n ∈ names) :
    (hostWith root names).isFile (root.join (.ofString n)) = true := by
  have hget : (hostWith root names).content? (root.join (.ofString n)) = some (.bytes []) := by
    induction names with
    | nil => simp at hn
    | cons m names ih =>
      rw [Host.content?, hostWith, List.map_cons, Table.get?]
      split
      · rfl
      next hne =>
        refine ih ((List.mem_cons.1 hn).resolve_left ?_)
        rintro rfl
        exact hne rfl
  rw [Host.isFile, hget]

theorem filterMap_eq_self_iff {α : Type} {f : α → Option α} {l : List α} :
    l.filterMap f = l ↔ ∀ a ∈ l, f a = some a := by
  induction l with
  | nil => simp
  | cons a l ih =>
    cases ha : f a with
    | none =>
      -- the list would have to be as long as the rest of it
      have hle := List.length_filterMap_le f l
      rw [List.filterMap_cons_none ha]
      refine iff_of_false (fun h => ?_) fun h => ?_
      · have hlength := congrArg List.length h
        rw [List.length_cons] at hlength
        omega
      · simpa [ha] using h a List.mem_cons_self
    | some b => simp [ha, ih]

/-- **The changed files are found exactly if all their names come through unaltered.** What is found
are the selected ones among the names that are read, each of them a printed name without the blanks
at its ends; on every host and for all patterns these are the selected ones among the names that
changed, in their order and as often, exactly if every name is plain, trimmed and not empty. -/
theorem discover_listed {run : Runner} {base : String} {root : Path} {names : List String}
    {errors : Option String}
    (hrun : (run (command base) (some root)).result = .ok ⟨0, some (listing names), errors⟩) :
    (∀ (h : Host) (patterns : List String),
      (discover h run base root patterns).result =
        .ok ((names.filterMap fun n => Text.trimmed? (printed n)).filter
          (Selected h root patterns ·))) ∧
    ((∀ (h : Host) (patterns : List String),
        (discover h run base root patterns).result =
          .ok (names.filter (Selected h root patterns ·))) ↔
      ∀ n ∈ names, Unaltered n) := by
  refine ⟨discover_of_listed hrun, fun hall => ?_, fun hall h patterns => ?_⟩
  · -- where all files are there, and all names match, nothing hides what became of the names
    let read := names.filterMap fun n => Text.trimmed? (printed n)
    have hpresent : ∀ ns ⊆ names ++ read, ns.filter
        (Selected (hostWith root (names ++ read)) root ["*"] ·) = ns := by
      intro ns hns
      refine List.filter_eq_self.2 fun n hn => decide_eq_true ⟨⟨"*", by simp, ?_⟩, ?_⟩
      · exact .inl (matches_star n)
      · exact isFile_hostWith (hns hn)
    have hread : read = names := by
      have hfound := (discover_of_listed hrun _ _).symm.trans
        (hall (hostWith root (names ++ read)) ["*"])
      rwa [Except.ok.injEq, hpresent read (List.subset_append_right ..),
        hpresent names (List.subset_append_left ..)] at hfound
    intro n hn
    exact trimmed?_printed_iff.1 (filterMap_eq_self_iff.1 hread n hn)
  · rw [discover_of_listed hrun,
      filterMap_eq_self_iff.2 fun n hn => trimmed?_printed_iff.2 (hall n hn)]

/-- Version control that answers with the list of these names. -/
def listed (names : List String) : Runner := fun _ _ => .done ⟨0, some (listing names), none⟩

/-- A blank inside of a name does no harm. -/
theorem discover_listed_inner :
    (discover (hostWith .root ["my view.php"]) (listed ["a.php", "my view.php"]) "abc" .root
      defaultPatterns).result = .ok ["my view.php"] := by
  have hunaltered : ∀ n ∈ ["a.php", "my view.php"], Unaltered n := by
    intro n hn
    rw [← trimmed?_printed_iff]
    revert n
    decide +kernel
  have hlisted : (listed ["a.php", "my view.php"] (command "abc") (some .root)).result =
      .ok ⟨0, some (listing ["a.php", "my view.php"]), none⟩ := rfl
  have hfound := (discover_listed hlisted).2.2 hunaltered (hostWith .root ["my view.php"])
    defaultPatterns
  rw [hfound]
  decide +kernel

/-- Of three changed files that are all there, the one whose name begins with a blank and the one
whose name is not ASCII are not found. -/
theorem discover_loses :
    (discover (hostWith .root [" a.php", "café.php", "b.php"])
        (listed [" a.php", "café.php", "b.php"]) "abc" .root defaultPatterns).result =
      .ok ["b.php"] ∧
    [" a.php", "café.php", "b.php"].filter
        (Selected (hostWith .root [" a.php", "café.php", "b.php"]) .root defaultPatterns ·) =
      [" a.php", "café.php", "b.php"] := by
  decide +kernel

end LintGate.Changes
