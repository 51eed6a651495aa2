import LintGate.Text.Lines

/-!
# Cutting text into lines

A text is cut at every break, and a line feed is only one of the breaks: text without a line feed
in it may still fall into several pieces. What is printed as one line is therefore not always read
as one. The lemmas below say how far the cutting respects what was printed: no piece holds a break
(`unbroken_of_mem_linesOf`), unbroken text in front of a text only lengthens its first piece
(`linesOf_append`), and a line feed behind a text cuts there, whatever the text is
(`linesOf_append_lineFeed`), though it may leave one empty piece or none.
-/

namespace LintGate.Text

/-- **Unbroken text** has no break in it. -/
def Unbroken (s : List Char) : Prop := ∀ c ∈ s, isBreak c = false

instance (s : List Char) : Decidable (Unbroken s) :=
  decidable_of_iff (s.all fun c => !isBreak c) (by simp [Unbroken])

@[simp] theorem unbroken_nil : Unbroken [] := by simp [Unbroken]

@[simp] theorem unbroken_cons {c : Char} {s : List Char} :
    Unbroken (c :: s) ↔ isBreak c = false ∧ Unbroken s := by simp [Unbroken]

@[simp] theorem unbroken_append {s t : List Char} :
    Unbroken (s ++ t) ↔ Unbroken s ∧ Unbroken t := List.forall_mem_append

/-- A break that is not the first half of a carriage return with its line feed ends an empty
line. -/
theorem linesOf_cons_break {c : Char} {r : List Char} (h : isBreak c = true)
    (hr : ∀ t, c = '\r' → r ≠ '\n' :: t) : linesOf (c :: r) = [] :: linesOf r := by
  rw [linesOf]
  · rw [if_pos h]
  · exact fun t hc ht => hr t hc ht

/-- Any other character goes to the front of the first line. -/
theorem linesOf_cons {c : Char} (h : isBreak c = false) (r : List Char) :
    linesOf (c :: r) = (c :: (linesOf r).headD []) :: (linesOf r).tail := by
  have hc : c ≠ '\r' := by rintro rfl; revert h; decide
  rw [linesOf]
  · rw [if_neg (by simp [h])]
    cases linesOf r <;> rfl
  · exact fun t hr _ => hc hr

/-- Unbroken text in front of a text goes to the front of its first line. -/
theorem linesOf_append {k : List Char} (h : Unbroken k) (hk : k ≠ []) (s : List Char) :
    linesOf (k ++ s) = (k ++ (linesOf s).headD []) :: (linesOf s).tail := by
  induction k with
  | nil => exact absurd rfl hk
  | cons c k ih =>
    rw [unbroken_cons] at h
    rw [List.cons_append, linesOf_cons h.1]
    by_cases hk : k = []
    · subst hk
      rfl
    · rw [ih h.2 hk]
      rfl

/-- Unbroken text is one line. -/
theorem linesOf_of_unbroken {s : List Char} (h : Unbroken s) (hs : s ≠ []) : linesOf s = [s] := by
  have := linesOf_append h hs []
  simpa using this

/-- **Unbroken text with a line feed behind it is one line**, whatever follows. -/
theorem linesOf_line {s : List Char} (h : Unbroken s) (r : List Char) :
    linesOf (s ++ '\n' :: r) = s :: linesOf r := by
  have hfeed : linesOf ('\n' :: r) = [] :: linesOf r := linesOf_cons_break (by decide) (by simp)
  by_cases hs : s = []
  · rw [hs, List.nil_append, hfeed]
  · rw [linesOf_append h hs, hfeed, List.headD_cons, List.append_nil, List.tail_cons]

/-- **No line holds a break.** -/
theorem unbroken_of_mem_linesOf {s l : List Char} (h : l ∈ linesOf s) : Unbroken l := by
  fun_induction linesOf s generalizing l with
  | case1 => simp at h
  | case2 r ih =>
    rcases List.mem_cons.1 h with rfl | h
    · exact unbroken_nil
    · exact ih h
  | case3 c r _ _ ih =>
    rcases List.mem_cons.1 h with rfl | h
    · exact unbroken_nil
    · exact ih h
  | case4 c r _ hc hr ih =>
    rw [List.mem_singleton.1 h]
    simpa using hc
  | case5 c r _ hc l' ls hr ih =>
    rcases List.mem_cons.1 h with rfl | h
    · exact unbroken_cons.2 ⟨by simpa using hc, ih (hr ▸ List.mem_cons_self)⟩
    · exact ih (hr ▸ List.mem_cons_of_mem _ h)

/-- Text has lines as soon as it has characters. -/
theorem linesOf_ne_nil {s : List Char} (h : s ≠ []) : linesOf s ≠ [] := by
  fun_cases linesOf s <;> simp_all

/-- **A line feed cuts.** The lines of a text and of what follows a line feed behind it are all the
lines there are, but for an empty one in between when the text is empty or ends in a break of its
own. -/
theorem linesOf_append_lineFeed {s : List Char} (h : '\n' ∉ s) (r : List Char) :
    ∃ gap, (gap = [] ∨ gap = [[]]) ∧
      linesOf (s ++ '\n' :: r) = linesOf s ++ gap ++ linesOf r := by
  induction s with
  | nil =>
    refine ⟨[[]], .inr rfl, ?_⟩
    exact linesOf_cons_break (by decide) (by simp)
  | cons c s ih =>
    rw [List.mem_cons, not_or] at h
    obtain ⟨gap, hgap, hs⟩ := ih h.2
    cases hc : isBreak c with
    | false =>
      rw [List.cons_append, linesOf_cons hc, linesOf_cons hc, hs]
      by_cases hnil : s = []
      · -- the character is the whole line that the line feed ends, so the gap closes
        subst hnil
        have hr : linesOf ('\n' :: r) = [] :: linesOf r :=
          linesOf_cons_break (by decide) (by simp)
        rw [← hs, List.nil_append, hr]
        exact ⟨[], .inl rfl, rfl⟩
      · obtain ⟨l, ls, hl⟩ := List.exists_cons_of_ne_nil (linesOf_ne_nil hnil)
        rw [hl]
        exact ⟨gap, hgap, rfl⟩
    | true =>
      have hfirst : linesOf (c :: s) = [] :: linesOf s := by
        refine linesOf_cons_break hc fun t _ ht => h.2 ?_
        rw [ht]
        exact List.mem_cons_self
      by_cases hpair : c = '\r' ∧ s = []
      · -- a carriage return and the line feed are one break
        obtain ⟨rfl, rfl⟩ := hpair
        refine ⟨[], .inl rfl, ?_⟩
        rw [hfirst, linesOf_nil, List.cons_append, List.nil_append, linesOf]
        rfl
      · have hrest : linesOf (c :: (s ++ '\n' :: r)) = [] :: linesOf (s ++ '\n' :: r) := by
          refine linesOf_cons_break hc fun t hcr ht => ?_
          cases s with
          | nil => exact hpair ⟨hcr, rfl⟩
          | cons d s =>
            rw [List.cons_append, List.cons.injEq] at ht
            exact h.2 (List.mem_cons.2 (.inl ht.1.symm))
        rw [List.cons_append, hrest, hfirst, hs]
        exact ⟨gap, hgap, rfl⟩

/-- Text without a carriage return stays as it is when line ends are unified. -/
theorem unifyLineEnds_append {s : List Char} (h : '\r' ∉ s) (r : List Char) :
    unifyLineEnds (s ++ r) = s ++ unifyLineEnds r := by
  induction s with
  | nil => rfl
  | cons c s ih =>
    rw [List.mem_cons, not_or] at h
    have hc : c ≠ '\r' := Ne.symm h.1
    rw [List.cons_append, unifyLineEnds, if_neg hc, ih h.2]
    · rfl
    · exact fun t hr _ => hc hr

end LintGate.Text
