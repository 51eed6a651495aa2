import LintGate.Proofs.Annotations.Format

/-!
# Lines keep what their findings say

The texts of a finding stand in its line as they are. A message may have quotation marks in it and
imitate the rest of a line, so there can be several ways to cut a line into a message and a
source. Only one of them leaves no quotation mark in the source, and the names of rules have none.

A line is therefore taken apart from both ends. From the front, the two numbers and the severity
reach up to the next quotation mark each, for they have none either. From the back, once the
ending is gone, the source begins behind the last quotation mark, and what remains between is the
message. So two findings have the same line exactly when they agree in everything but their file.
-/

namespace LintGate

/-! ## Cutting at a mark -/

namespace Text

section Marks

variable {mark : Char} {s t u v : List Char}

/-- What stands in front of the first mark. -/
theorem takeWhile_append_mark (h : mark ∉ s) (u : List Char) :
    (s ++ mark :: u).takeWhile (· != mark) = s := by
  have hpass : ∀ c ∈ s, (c != mark) = true := by
    intro c hc
    simpa using ne_of_mem_of_not_mem hc h
  rw [List.takeWhile_append_of_pos hpass, List.takeWhile_cons_of_neg (by simp), List.append_nil]

/-- **A text is cut at its first mark in one way.** -/
theorem cut_inj_of_first (hs : mark ∉ s) (ht : mark ∉ t) :
    s ++ mark :: u = t ++ mark :: v ↔ s = t ∧ u = v := by
  refine ⟨fun h => ?_, by rintro ⟨rfl, rfl⟩; rfl⟩
  obtain rfl : s = t := by rw [← takeWhile_append_mark hs u, h, takeWhile_append_mark ht]
  exact ⟨rfl, List.tail_eq_of_cons_eq (List.append_cancel_left h)⟩

/-- **A text is cut at its last mark in one way.** -/
theorem cut_inj_of_last (hu : mark ∉ u) (hv : mark ∉ v) :
    s ++ mark :: u = t ++ mark :: v ↔ s = t ∧ u = v := by
  have hu' : mark ∉ u.reverse := by rwa [List.mem_reverse]
  have hv' : mark ∉ v.reverse := by rwa [List.mem_reverse]
  calc s ++ mark :: u = t ++ mark :: v
      ↔ u.reverse ++ mark :: s.reverse = v.reverse ++ mark :: t.reverse := by
        rw [← List.reverse_inj]
        simp
    _ ↔ u.reverse = v.reverse ∧ s.reverse = t.reverse := cut_inj_of_first hu' hv'
    _ ↔ s = t ∧ u = v := by rw [List.reverse_inj, List.reverse_inj, and_comm]

end Marks

section Joined

variable {a b r s : String}

/-- A text without quotation marks reaches up to the first one. -/
theorem joined_inj_of_first (ha : '"' ∉ a.toList) (hb : '"' ∉ b.toList) :
    joined a r = joined b s ↔ a = b ∧ r = s := by
  rw [← String.toList_inj, toList_joined, toList_joined, cut_inj_of_first ha hb,
    String.toList_inj, String.toList_inj]

/-- A text without quotation marks begins behind the last one. -/
theorem joined_inj_of_last (hr : '"' ∉ r.toList) (hs : '"' ∉ s.toList) :
    joined a r = joined b s ↔ a = b ∧ r = s := by
  rw [← String.toList_inj, toList_joined, toList_joined, cut_inj_of_last hr hs,
    String.toList_inj, String.toList_inj]

end Joined

/-- A number has no quotation marks. -/
theorem quote_not_mem_toString (n : Nat) : '"' ∉ (toString n).toList :=
  fun hquote => absurd (isDigit_of_mem_toString hquote) (by decide)

end Text

namespace Severity

/-- The name of a severity has no quotation marks. -/
theorem quote_not_mem_name (s : Severity) : '"' ∉ s.name.toList := by
  cases s <;> decide

/-- Severities are told apart by their names. -/
theorem name_inj {s t : Severity} : s.name = t.name ↔ s = t := by
  refine ⟨fun h => ?_, congrArg name⟩
  have hlisted := lookup_name s
  rw [h, lookup_name] at hlisted
  exact (Option.some.inj hlisted).symm

end Severity

/-! ## The parts of a line -/

open Text

/-- A number is read up to the next quotation mark. -/
theorem joined_number_inj {m n : Nat} {r s : String} :
    joined (toString m) r = joined (toString n) s ↔ m = n ∧ r = s := by
  rw [joined_inj_of_first (quote_not_mem_toString m) (quote_not_mem_toString n)]
  refine and_congr_left' ⟨fun h => ?_, congrArg toString⟩
  have hdigits : Nat.toDigits 10 m = Nat.toDigits 10 n := by
    rw [← Nat.toList_repr, ← Nat.toList_repr]
    exact congrArg String.toList h
  calc m = Nat.ofDigitChars 10 (Nat.toDigits 10 m) 0 := Nat.ofDigitChars_ten_toDigits.symm
    _ = Nat.ofDigitChars 10 (Nat.toDigits 10 n) 0 := by rw [hdigits]
    _ = n := Nat.ofDigitChars_ten_toDigits

/-- A severity is read up to the next quotation mark. -/
theorem joined_severity_inj {x y : Severity} {r s : String} :
    joined x.name r = joined y.name s ↔ x = y ∧ r = s := by
  rw [joined_inj_of_first x.quote_not_mem_name y.quote_not_mem_name, Severity.name_inj]

/-- **The texts of a line are read from its end**: the source begins behind the last quotation mark
but the closing one, and the message is what stands in front, whatever it holds. -/
theorem joined_texts_inj {m n s t : String} (hs : '"' ∉ s.toList) (ht : '"' ∉ t.toList) :
    joined m (joined " source=" (joined s "/>")) = joined n (joined " source=" (joined t "/>"))
      ↔ m = n ∧ s = t := by
  have hends : ∀ x y : String, joined x (joined " source=" (joined y "/>"))
      = joined (joined (joined x " source=") y) "/>" := by
    intro x y
    rw [joined_assoc, joined_assoc]
  rw [hends, hends, joined_left_inj, joined_inj_of_last hs ht, joined_left_inj]

/-! ## The whole line -/

/-- **Lines keep what their findings say.** When no rule has a quotation mark in its name, two
findings have the same line exactly when they agree in everything but their file. -/
theorem errorLine_eq_iff {f g : Finding} (hf : '"' ∉ f.source.toList) (hg : '"' ∉ g.source.toList) :
    errorLine f = errorLine g ↔
      f.line = g.line ∧ f.column = g.column ∧ f.severity = g.severity ∧
        f.message = g.message ∧ f.source = g.source := by
  rw [errorLine_eq_joined, errorLine_eq_joined, errorLineHead_eq_joined, errorLineHead_eq_joined]
  simp only [joined_assoc]
  rw [joined_right_inj, joined_number_inj, joined_right_inj, joined_number_inj,
    joined_right_inj, joined_severity_inj, joined_right_inj, joined_texts_inj hf hg]

/-- A finding whose message goes on like the rest of a line. -/
def imitatingFinding : Finding where
  file := "a.php"
  line := 12
  column := 81
  severity := .warning
  message := "Line too long\" source=\"Generic.Files.LineLength"
  source := "Generic.Files.LineLength"

/-- A message that imitates the rest of a line is told apart from the message that it goes on from,
and the file makes no difference. -/
theorem errorLine_eq_iff_imitating :
    '"' ∉ imitatingFinding.source.toList ∧
    errorLine imitatingFinding ≠ errorLine { imitatingFinding with message := "Line too long" } ∧
    errorLine imitatingFinding = errorLine { imitatingFinding with file := "b.php" } := by
  have hsource : '"' ∉ imitatingFinding.source.toList := by decide
  have hplain : '"' ∉ { imitatingFinding with message := "Line too long" }.source.toList := by decide
  have hother : '"' ∉ { imitatingFinding with file := "b.php" }.source.toList := by decide
  refine ⟨hsource, fun h => ?_, (errorLine_eq_iff hsource hother).2 ⟨rfl, rfl, rfl, rfl, rfl⟩⟩
  obtain ⟨-, -, -, hmessage, -⟩ := (errorLine_eq_iff hsource hplain).1 h
  revert hmessage
  decide

/-- With quotation marks in the names of rules, a part of the message could pass for one of the
source. -/
example : errorLine ⟨"a.php", 1, 1, .error, "x", "y\" source=\"z"⟩
    = errorLine ⟨"a.php", 1, 1, .error, "x\" source=\"y", "z"⟩ := by decide

end LintGate
