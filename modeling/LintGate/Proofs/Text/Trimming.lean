import LintGate.Text.Blank
import Mathlib.Data.List.TakeWhile

/-!
# Trimmed texts

A text is trimmed when it neither begins nor ends with a blank. That is what trimming leaves
of any text in which it leaves something, and the texts that it leaves alone.
-/

namespace LintGate.Text

/-- What is left of a text has no character of the class in front. -/
theorem eq_false_of_mem_head?_trimWith {p : Char → Bool} {s : List Char} {c : Char}
    (h : c ∈ (trimWith p s).head?) : p c = false := by
  -- it is a beginning of the text without the characters in front
  obtain ⟨behind, hsplit⟩ : trimWith p s <+: s.dropWhile p := by
    rw [trimWith, ← List.reverse_suffix, List.reverse_reverse]
    exact List.dropWhile_suffix p
  obtain ⟨r, hr⟩ := List.head?_eq_some_iff.1 h
  have hhead : (s.dropWhile p).head? = some c := by
    rw [← hsplit, hr]
    rfl
  have hnot := List.head?_dropWhile_not p s
  rw [hhead] at hnot
  exact hnot

/-- What is left of a text has no character of the class at its end. -/
theorem eq_false_of_mem_getLast?_trimWith {p : Char → Bool} {s : List Char} {c : Char}
    (h : c ∈ (trimWith p s).getLast?) : p c = false := by
  rw [trimWith, List.getLast?_reverse] at h
  have hnot := List.head?_dropWhile_not p (s.dropWhile p).reverse
  rw [h] at hnot
  exact hnot

/-- Nothing is left exactly of a text that has nothing but characters of the class. -/
theorem trimWith_eq_nil_iff {p : Char → Bool} {s : List Char} :
    trimWith p s = [] ↔ ∀ c ∈ s, p c = true := by
  rw [trimWith, List.reverse_eq_nil_iff, List.dropWhile_eq_nil_iff]
  refine ⟨fun h => ?_, fun h c hc => h c ((List.dropWhile_sublist p).mem (List.mem_reverse.1 hc))⟩
  by_contra hall
  -- the character in front of what is left is not of the class
  have hne : s.dropWhile p ≠ [] := fun hnil => hall (List.dropWhile_eq_nil_iff.1 hnil)
  have hhead := List.head_dropWhile_not p hne
  simp [h _ (List.mem_reverse.2 (List.head_mem hne))] at hhead

/-- **A trimmed text** neither begins nor ends with a blank. -/
structure IsTrimmed (s : String) : Prop where
  /-- It does not begin with one, -/
  first : ∀ c ∈ s.toList.head?, isBlank c = false
  /-- and does not end with one. -/
  last : ∀ c ∈ s.toList.getLast?, isBlank c = false

/-- **What is left of a text is trimmed**, and not empty. -/
theorem isTrimmed_of_trimmed? {s t : String} (h : trimmed? s = some t) : t ≠ "" ∧ IsTrimmed t := by
  unfold trimmed? at h
  split at h
  next => cases h
  next hblank =>
    cases h
    refine ⟨fun hempty => hblank ?_, ?_, ?_⟩
    · have hnil : trimWith isBlank s.toList = [] := by
        simpa [trim] using congrArg String.toList hempty
      exact List.all_eq_true.2 (trimWith_eq_nil_iff.1 hnil)
    · intro c hc
      rw [trim, String.toList_ofList] at hc
      exact eq_false_of_mem_head?_trimWith hc
    · intro c hc
      rw [trim, String.toList_ofList] at hc
      exact eq_false_of_mem_getLast?_trimWith hc

/-- **A text is left** exactly when it is what trimming leaves and not empty. -/
theorem trimmed?_eq_some_iff {s t : String} : trimmed? s = some t ↔ trim s = t ∧ t ≠ "" := by
  refine ⟨fun h => ⟨?_, (isTrimmed_of_trimmed? h).1⟩, ?_⟩
  · unfold trimmed? at h
    split at h
    next => cases h
    next => exact Option.some.inj h
  · rintro ⟨rfl, hne⟩
    refine if_neg fun hblank => hne ?_
    rw [trim, trimWith_eq_nil_iff.2 (List.all_eq_true.1 hblank), String.ofList_nil]

/-- **Trimming leaves alone what is trimmed**, and nothing else. -/
theorem trimmed?_eq_some_self_iff {s : String} : trimmed? s = some s ↔ s ≠ "" ∧ IsTrimmed s := by
  refine ⟨isTrimmed_of_trimmed?, fun ⟨hne, htrimmed⟩ => trimmed?_eq_some_iff.2 ⟨?_, hne⟩⟩
  rw [trim, trimWith_of_ends htrimmed.first htrimmed.last, String.ofList_toList]

end LintGate.Text
