import LintGate.Text.Ansi

/-!
# Physical lines

A reader of the output cuts it at every carriage return and every line feed, and at nothing else.
`rows` are the pieces, and there is always one more of them than there are line ends. They depend on
nothing but the line ends: a text is either on one line, or it is two shorter texts with a line end
in between, and `rows_induction` is the induction over that.

Control sequences are taken out of a text before it is written. None of them holds a line end or a
quotation mark, so these cut a text in two parts that are written each for itself
(`withoutSequences_append_cons`). It makes no difference whether a text is cut into lines before its
sequences are taken out or afterwards (`rows_withoutSequences`).
-/

namespace LintGate.Text

/-! ## Lines -/

/-- **The characters that end a physical line.** -/
def isLineEnd (c : Char) : Bool := c == '\n' || c == '\r'

/-- **The physical lines of a text**, cut at every line end. Behind a line end that ends the text
there is one more, which is empty. -/
def rows (s : List Char) : List (List Char) := s.splitOnP isLineEnd

/-- The number of line ends in a text. -/
def lineEnds (s : List Char) : Nat := s.countP isLineEnd

/-- **A text on one line.** -/
def OneLine (s : List Char) : Prop := ∀ c ∈ s, isLineEnd c = false

instance (s : List Char) : Decidable (OneLine s) :=
  decidable_of_iff (s.all fun c => !isLineEnd c) (by simp [OneLine])

@[simp] theorem oneLine_append {s t : List Char} :
    OneLine (s ++ t) ↔ OneLine s ∧ OneLine t := List.forall_mem_append

theorem lineEnds_of_oneLine {s : List Char} (h : OneLine s) : lineEnds s = 0 := by
  rw [lineEnds, List.countP_eq_zero]
  exact fun c hc => by simp [h c hc]

theorem rows_ne_nil (s : List Char) : rows s ≠ [] := List.splitOnP_ne_nil isLineEnd s

theorem rows_of_oneLine {s : List Char} (h : OneLine s) : rows s = [s] :=
  List.splitOnP_eq_singleton h

/-- **A line end cuts.** -/
theorem rows_append_cons (s : List Char) {c : Char} (hc : isLineEnd c = true) (t : List Char) :
    rows (s ++ c :: t) = rows s ++ rows t :=
  List.splitOnP_append_cons s t hc

/-- **A text holds no character of a class, or one of them cuts it in two.** -/
theorem cut_induction {P : List Char → Prop} (p : Char → Bool)
    (whole : ∀ s, (∀ c ∈ s, p c = false) → P s)
    (cut : ∀ s c t, p c = true → P s → P t → P (s ++ c :: t)) (s : List Char) : P s := by
  induction hn : s.length using Nat.strongRecOn generalizing s with
  | ind n ih =>
    subst hn
    by_cases hs : ∀ c ∈ s, p c = false
    · exact whole s hs
    · obtain ⟨c, hmem, hc⟩ : ∃ c ∈ s, p c = true := by simpa using hs
      obtain ⟨a, b, rfl⟩ := List.append_of_mem hmem
      have ha : a.length < (a ++ c :: b).length := by simp
      have hb : b.length < (a ++ c :: b).length := by simp; omega
      exact cut a c b hc (ih _ ha a rfl) (ih _ hb b rfl)

/-- **A text is on one line, or a line end cuts it in two.** -/
theorem rows_induction {P : List Char → Prop} (one : ∀ s, OneLine s → P s)
    (cut : ∀ s c t, isLineEnd c = true → P s → P t → P (s ++ c :: t)) (s : List Char) : P s :=
  cut_induction isLineEnd one cut s

/-- **There is one line more than there are line ends.** -/
theorem length_rows (s : List Char) : (rows s).length = lineEnds s + 1 := by
  induction s using rows_induction with
  | one s h => rw [rows_of_oneLine h, lineEnds_of_oneLine h, List.length_singleton]
  | cut s c t hc hs ht =>
    have hsum : lineEnds (s ++ c :: t) = lineEnds s + (lineEnds t + 1) := by
      rw [lineEnds, List.countP_append, List.countP_cons_of_pos hc]
      rfl
    rw [rows_append_cons s hc t, List.length_append, hs, ht, hsum]
    omega

/-- Text on one line in front of a text goes to the front of its first line. -/
theorem exists_rows_append {k : List Char} (hk : OneLine k) (s : List Char) :
    ∃ first rest, rows (k ++ s) = (k ++ first) :: rest := by
  induction s using rows_induction with
  | one s h => exact ⟨s, [], rows_of_oneLine (oneLine_append.mpr ⟨hk, h⟩)⟩
  | cut s c t hc hs _ =>
    obtain ⟨first, rest, hrows⟩ := hs
    refine ⟨first, rest ++ rows t, ?_⟩
    rw [← List.append_assoc, rows_append_cons _ hc t, hrows, List.cons_append]

/-- **A text that ends with a line end** keeps its lines when others follow. -/
theorem rows_append_of_rows_eq {s : List Char} {ls : List (List Char)} (h : rows s = ls ++ [[]])
    (t : List Char) : rows (s ++ t) = ls ++ rows t := by
  induction s using rows_induction generalizing ls with
  | one s hs =>
    rw [rows_of_oneLine hs] at h
    obtain ⟨rfl, hs⟩ : [] = ls ∧ [s] = [[]] := List.append_inj' h rfl
    obtain rfl := List.singleton_inj.mp hs
    rfl
  | cut s c r hc _ ih =>
    have hrows : rows r = (rows r).dropLast ++ [(rows r).getLast (rows_ne_nil r)] :=
      (List.dropLast_concat_getLast (rows_ne_nil r)).symm
    rw [rows_append_cons s hc, hrows, ← List.append_assoc] at h
    obtain ⟨rfl, hlast⟩ := List.append_inj' h rfl
    rw [hlast] at hrows
    rw [List.append_assoc, List.cons_append, rows_append_cons s hc, ih hrows, List.append_assoc]

/-! ## Control sequences -/

/-- **A character that is part of no control sequence.** -/
structure Solid (c : Char) : Prop where
  /-- It opens none, -/
  not_escape : c ≠ escapeChar
  /-- nor goes on with one, -/
  not_bracket : c ≠ '['
  /-- is none of its parameters, -/
  not_parameter : isParameter c = false
  /-- and does not end it. -/
  not_alpha : c.isAlpha = false

theorem solid_of_isLineEnd {c : Char} (h : isLineEnd c = true) : Solid c := by
  have hc : c = '\n' ∨ c = '\r' := by simpa [isLineEnd] using h
  rcases hc with rfl | rfl <;> exact ⟨by decide, by decide, by decide, by decide⟩

theorem solid_quote : Solid '"' := ⟨by decide, by decide, by decide, by decide⟩

/-- **A solid character ends the text for a control sequence**, which is complete before it or not
at all. -/
theorem sequenceLength?_append_cons {c : Char} (hc : Solid c) (s t : List Char) :
    sequenceLength? (s ++ c :: t) = sequenceLength? s ∧
      ∀ n, sequenceLength? s = some n → n ≤ s.length := by
  cases s with
  | nil =>
    refine ⟨?_, by simp [sequenceLength?]⟩
    unfold sequenceLength?
    split
    · next r heq => exact absurd (List.cons.inj heq).1 hc.not_bracket
    · rfl
  | cons b r =>
    by_cases hb : b = '['
    · subst hb
      have hlen : (r.takeWhile isParameter).length + (r.dropWhile isParameter).length
          = r.length := by
        rw [← List.length_append, List.takeWhile_append_dropWhile]
      cases hd : r.dropWhile isParameter with
      | nil =>
        -- the parameters go on up to the character, which ends no sequence
        have hdrop : (r ++ c :: t).dropWhile isParameter = c :: t := by
          rw [List.dropWhile_append, hd]
          simp [hc.not_parameter]
        simp [sequenceLength?, hd, hdrop, hc.not_alpha]
      | cons d rest =>
        have hdrop : (r ++ c :: t).dropWhile isParameter = d :: (rest ++ c :: t) := by
          rw [List.dropWhile_append, hd]
          rfl
        have hne : (r.takeWhile isParameter).length ≠ r.length := by
          rw [hd, List.length_cons] at hlen
          omega
        have htake : (r ++ c :: t).takeWhile isParameter = r.takeWhile isParameter := by
          rw [List.takeWhile_append, if_neg hne]
        rw [hd, List.length_cons] at hlen
        simp only [sequenceLength?, List.cons_append, hdrop, hd, htake, List.length_cons]
        refine ⟨trivial, fun n hn => ?_⟩
        split at hn
        · cases hn
          omega
        · cases hn
    · simp [sequenceLength?, hb]

/-- A character that opens no sequence stays. -/
theorem dropSequences_zero_of_ne {c : Char} (h : c ≠ escapeChar) (s : List Char) :
    dropSequences 0 (c :: s) = c :: dropSequences 0 s := if_neg h

/-- An escape character is dropped with the sequence that it opens, if it opens one. -/
theorem dropSequences_zero_escape (s : List Char) :
    dropSequences 0 (escapeChar :: s)
      = match sequenceLength? s with
        | some n => dropSequences n s
        | none => escapeChar :: dropSequences 0 s := if_pos rfl

/-- **A solid character cuts the text in two**, and each part is written for itself. -/
theorem withoutSequences_append_cons (s : List Char) {c : Char} (hc : Solid c) (t : List Char) :
    withoutSequences (s ++ c :: t) = withoutSequences s ++ c :: withoutSequences t := by
  -- characters of a sequence are still to be dropped, and the solid one is not among them
  have hskip : ∀ (s : List Char) (skip : Nat), skip ≤ s.length →
      dropSequences skip (s ++ c :: t) = dropSequences skip s ++ c :: withoutSequences t := by
    intro s
    induction s with
    | nil =>
      intro skip h
      obtain rfl : skip = 0 := by simpa using h
      exact dropSequences_zero_of_ne hc.not_escape t
    | cons a s ih =>
      intro skip h
      cases skip with
      | succ skip => exact ih skip (Nat.le_of_succ_le_succ h)
      | zero =>
        obtain ⟨hseq, hle⟩ := sequenceLength?_append_cons hc s t
        have hrest : dropSequences 0 (s ++ c :: t)
            = dropSequences 0 s ++ c :: withoutSequences t := ih 0 (Nat.zero_le _)
        by_cases ha : a = escapeChar
        · rw [List.cons_append, ha, dropSequences_zero_escape, dropSequences_zero_escape, hseq]
          cases hn : sequenceLength? s with
          | some n => exact ih n (hle n hn)
          | none => exact congrArg (escapeChar :: ·) hrest
        · rw [List.cons_append, dropSequences_zero_of_ne ha, dropSequences_zero_of_ne ha, hrest]
          rfl
  exact hskip s 0 (Nat.zero_le _)

/-- Taking out control sequences only takes out. -/
theorem mem_of_mem_withoutSequences {s : List Char} {c : Char} (h : c ∈ withoutSequences s) :
    c ∈ s := by
  unfold withoutSequences at h
  generalize 0 = skip at h
  fun_induction dropSequences skip s with
  | case1 => exact h
  | case2 skip a r ih => exact List.mem_cons_of_mem _ (ih h)
  | case3 r n hn ih => exact List.mem_cons_of_mem _ (ih h)
  | case4 r hn ih => exact List.mem_cons.mpr ((List.mem_cons.mp h).imp id ih)
  | case5 a r ha ih => exact List.mem_cons.mpr ((List.mem_cons.mp h).imp id ih)

theorem OneLine.withoutSequences {s : List Char} (h : OneLine s) :
    OneLine (withoutSequences s) :=
  fun c hc => h c (mem_of_mem_withoutSequences hc)

/-- **Lines are written each for itself.** -/
theorem rows_withoutSequences (s : List Char) :
    rows (withoutSequences s) = (rows s).map withoutSequences := by
  induction s using rows_induction with
  | one s h => rw [rows_of_oneLine h, rows_of_oneLine h.withoutSequences, List.map_singleton]
  | cut s c t hc hs ht =>
    rw [withoutSequences_append_cons s (solid_of_isLineEnd hc), rows_append_cons _ hc,
      rows_append_cons _ hc, hs, ht, List.map_append]

end LintGate.Text
