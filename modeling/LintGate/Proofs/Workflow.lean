import Mathlib.Data.List.Forall2
import LintGate.Proofs.Program.Output

/-!
# What a command carries

A command carries a text as its data: with percent escapes for the characters that must not stand
there, and without the control sequences that are taken out of whatever is written. `Carries` says
what a reader of the command has of it: it is one line, and when the escapes are undone one after
the other, the percent sign last, the text is had without its control sequences.

Two things have to be seen. The escapes share the percent sign, so undoing one of them must not
touch the others: each of them is undone in a text in which the characters undone before stand for
themselves again (`substitute_escapeBut`). And control sequences are looked for in the line and not
in the text. They hold no character that is escaped, and an escape holds nothing that a sequence
begins or goes on with, so it makes no difference whether they are taken out before or afterwards
(`withoutSequences_escape`).
-/

namespace LintGate

namespace Text

/-! ## Replacing a pattern -/

/-- A text with a pattern replaced behind its first `skip` characters, which are left out. -/
def substituteFrom (old new : List Char) : Nat → List Char → List Char
  | _, [] => []
  | skip + 1, _ :: r => substituteFrom old new skip r
  | 0, c :: r =>
    if old <+: c :: r then new ++ substituteFrom old new (old.length - 1) r
    else c :: substituteFrom old new 0 r

/-- **A text with a pattern replaced** wherever it stands, found from the left. -/
def substitute (old new s : List Char) : List Char := substituteFrom old new 0 s

variable {old new : List Char}

/-- An occurrence in front is replaced. -/
theorem substitute_append (h : old ≠ []) (s : List Char) :
    substitute old new (old ++ s) = new ++ substitute old new s := by
  have hskip : ∀ t : List Char,
      substituteFrom old new t.length (t ++ s) = substituteFrom old new 0 s := by
    intro t
    induction t with
    | nil => rfl
    | cons c t ih => exact ih
  obtain ⟨c, t, rfl⟩ := List.exists_cons_of_ne_nil h
  rw [List.cons_append, substitute, substituteFrom, if_pos ⟨s, rfl⟩]
  exact congrArg (new ++ ·) (hskip t)

/-- A character with which no occurrence begins stays. -/
theorem substitute_cons {c : Char} {s : List Char} (h : ¬ old <+: c :: s) :
    substitute old new (c :: s) = c :: substitute old new s := if_neg h

/-- **A text made of blocks** has a pattern replaced block by block, when no block depends on what
stands behind it. -/
theorem substitute_flatMap {f g : Char → List Char}
    (h : ∀ c s, substitute old new (f c ++ s) = g c ++ substitute old new s) (s : List Char) :
    substitute old new (s.flatMap f) = s.flatMap g := by
  induction s with
  | nil => rfl
  | cons c s ih => rw [List.flatMap_cons, h, ih, List.flatMap_cons]

/-- A pattern of one character is replaced wherever the character stands. -/
theorem substitute_singleton (d : Char) (new s : List Char) :
    substitute [d] new s = s.flatMap fun c => if c = d then new else [c] := by
  rw [← substitute_flatMap (f := fun c => [c]), List.flatMap_singleton']
  intro c t
  by_cases h : c = d
  · subst h
    simpa using substitute_append (List.cons_ne_nil c []) t
  · simp [h, substitute_cons, Ne.symm h]

/-- Text without an escape character in front stays as it is. -/
theorem withoutSequences_append {k : List Char} (h : escapeChar ∉ k) (s : List Char) :
    withoutSequences (k ++ s) = k ++ withoutSequences s := by
  induction k with
  | nil => rfl
  | cons c k ih =>
    rw [List.mem_cons, not_or] at h
    have hcons : withoutSequences (c :: (k ++ s)) = c :: withoutSequences (k ++ s) :=
      dropSequences_zero_of_ne (Ne.symm h.1) _
    rw [List.cons_append, hcons, ih h.2, List.cons_append]

end Text

open Text

namespace Workflow

/-! ## Escapes -/

/-- **The data of a command read back**: the escapes are undone one after the other. -/
def unescapeData (s : String) : String :=
  String.ofList (substitute ['%', '2', '5'] ['%'] (substitute ['%', '0', 'A'] ['\n']
    (substitute ['%', '0', 'D'] ['\r'] s.toList)))

/-- **The characters that are escaped in data.** -/
def isEscaped (c : Char) : Bool := c == '%' || c == '\r' || c == '\n'

/-- Every other character stands for itself. -/
theorem escapeChar_of_not_isEscaped {c : Char} (h : isEscaped c = false) : escapeChar c = [c] := by
  simp only [isEscaped, Bool.or_eq_false_iff, beq_eq_false_iff_ne] at h
  rw [escapeChar, if_neg h.1.1, if_neg h.1.2, if_neg h.2]

/-- **An escape is a percent sign with two more characters.** -/
theorem exists_escape {c : Char} (h : isEscaped c = true) :
    ∃ x y, escapeChar c = ['%', x, y] ∧ x.isAlphanum = true ∧ y.isAlphanum = true := by
  simp only [isEscaped, Bool.or_eq_true, beq_iff_eq] at h
  rcases h with (rfl | rfl) | rfl
  · exact ⟨'2', '5', rfl, by decide, by decide⟩
  · exact ⟨'0', 'D', rfl, by decide, by decide⟩
  · exact ⟨'0', 'A', rfl, by decide, by decide⟩

/-- What is escaped is part of no control sequence. -/
theorem solid_of_isEscaped {c : Char} (h : isEscaped c = true) : Solid c := by
  simp only [isEscaped, Bool.or_eq_true, beq_iff_eq] at h
  rcases h with (rfl | rfl) | rfl <;> exact ⟨by decide, by decide, by decide, by decide⟩

theorem ne_of_isAlphanum {c d : Char} (hc : c.isAlphanum = true) (hd : d.isAlphanum = false) :
    c ≠ d := by
  rintro rfl
  rw [hc] at hd
  cases hd

/-- Different characters are escaped differently. -/
theorem escapeChar_injective : Function.Injective escapeChar := by
  intro c d h
  unfold escapeChar at h
  grind

/-- A character escaped, unless it is one of those that were undone. -/
def escapeBut (undone : List Char) (c : Char) : List Char :=
  if c ∈ undone then [c] else escapeChar c

/-- **One escape is undone**: its character joins those that stand for themselves. -/
theorem substitute_escapeBut {undone : List Char} (hundone : '%' ∉ undone) {d x y : Char}
    (hd : escapeChar d = ['%', x, y]) (s : List Char) :
    substitute ['%', x, y] [d] (s.flatMap (escapeBut undone))
      = s.flatMap (escapeBut (d :: undone)) := by
  have hplain : ∀ {a : Char} {r : List Char}, a ≠ '%' →
      substitute ['%', x, y] [d] (a :: r) = a :: substitute ['%', x, y] [d] r := by
    intro a r ha
    exact substitute_cons (by simp [Ne.symm ha])
  refine substitute_flatMap (fun c t => ?_) s
  by_cases hc : c ∈ undone
  · have hne : c ≠ '%' := fun h => hundone (h ▸ hc)
    simp [escapeBut, hc, hplain hne]
  by_cases hcd : c = d
  · subst hcd
    simp only [escapeBut, hc, hd, List.mem_cons_self, if_true, if_false]
    exact substitute_append (List.cons_ne_nil _ _) t
  cases hescaped : isEscaped c with
  | false =>
    have hne : c ≠ '%' := by
      rintro rfl
      cases hescaped
    simp [escapeBut, hc, hcd, escapeChar_of_not_isEscaped hescaped, hplain hne]
  | true =>
    -- it is escaped in another way, so the pattern does not stand there
    obtain ⟨x', y', hescape, hx, hy⟩ := exists_escape hescaped
    have hother : ¬ ['%', x, y] <+: '%' :: x' :: y' :: t := by
      intro h
      refine hcd (escapeChar_injective ?_)
      simp only [List.cons_prefix_cons] at h
      rw [hescape, hd, h.2.1, h.2.2.1]
    have hx := ne_of_isAlphanum hx (d := '%') (by decide)
    have hy := ne_of_isAlphanum hy (d := '%') (by decide)
    simp [escapeBut, hc, hcd, hescape, substitute_cons hother, hplain hx, hplain hy]

/-- **Data is read back as the text that was escaped.** -/
theorem unescapeData_escapeData (s : String) : unescapeData (escapeData s) = s := by
  have hbegin : s.toList.flatMap escapeChar = s.toList.flatMap (escapeBut []) := by
    rw [show escapeBut [] = escapeChar from funext fun c => if_neg List.not_mem_nil]
  have hend : escapeBut ['%', '\n', '\r'] = fun c => [c] := by
    funext c
    unfold escapeBut escapeChar
    grind
  rw [unescapeData, escapeData, String.toList_ofList, hbegin,
    substitute_escapeBut (by decide) rfl, substitute_escapeBut (by decide) rfl,
    substitute_escapeBut (by decide) rfl, hend, List.flatMap_singleton', String.ofList_toList]

/-- **The three characters can be escaped one after the other**, the percent sign first. -/
theorem toList_escapeData_eq_substitute (s : String) :
    (escapeData s).toList
      = substitute ['\n'] ['%', '0', 'A'] (substitute ['\r'] ['%', '0', 'D']
          (substitute ['%'] ['%', '2', '5'] s.toList)) := by
  simp only [escapeData, String.toList_ofList, substitute_singleton, List.flatMap_assoc]
  refine congrArg (List.flatMap · s.toList) (funext fun c => ?_)
  by_cases hp : c = '%'
  · subst hp
    rfl
  by_cases hr : c = '\r'
  · subst hr
    rfl
  · simp [escapeChar, hp, hr]

/-- An escape ends what stands before it, and nothing of it is taken out. -/
theorem withoutSequences_append_escapeChar (s : List Char) {c : Char} (hc : isEscaped c = true)
    (t : List Char) :
    withoutSequences (s ++ (escapeChar c ++ t))
      = withoutSequences s ++ (escapeChar c ++ withoutSequences t) := by
  obtain ⟨x, y, hescape, hx, hy⟩ := exists_escape hc
  have hxy : Text.escapeChar ∉ [x, y] := by
    have hopen : Text.escapeChar.isAlphanum = false := by decide
    simp [Ne.symm (ne_of_isAlphanum hx hopen), Ne.symm (ne_of_isAlphanum hy hopen)]
  have hcut := withoutSequences_append_cons s (solid_of_isEscaped (c := '%') rfl) ([x, y] ++ t)
  rw [withoutSequences_append hxy] at hcut
  rw [hescape]
  exact hcut

/-- **Control sequences are taken out of data as they are taken out of the text.** -/
theorem withoutSequences_escape (s : List Char) :
    withoutSequences (s.flatMap escapeChar) = (withoutSequences s).flatMap escapeChar := by
  have hplain : ∀ {t : List Char}, (∀ c ∈ t, isEscaped c = false) → t.flatMap escapeChar = t := by
    intro t ht
    induction t with
    | nil => rfl
    | cons c t ih =>
      rw [List.flatMap_cons, escapeChar_of_not_isEscaped (ht c List.mem_cons_self),
        ih fun d hd => ht d (List.mem_cons_of_mem c hd), List.singleton_append]
  induction s using cut_induction isEscaped with
  | whole s h =>
    rw [hplain h, hplain fun c hc => h c (mem_of_mem_withoutSequences hc)]
  | cut s c t hc hs ht =>
    rw [List.flatMap_append, List.flatMap_cons, withoutSequences_append_escapeChar _ hc, hs, ht,
      withoutSequences_append_cons s (solid_of_isEscaped hc), List.flatMap_append,
      List.flatMap_cons]

/-! ## Commands -/

/-- **A line carries a text** behind an opening: its data is on one line, which a line feed ends,
and is read back as the text without its control sequences. -/
def Carries (opening line text : String) : Prop :=
  ∃ data, line = opening ++ data ++ "\n" ∧ OneLine data.toList ∧
    unescapeData data = String.ofList (withoutSequences text.toList)

/-- **An escaped text behind an opening is carried.** -/
theorem carries_written {opening : String} (h : Text.escapeChar ∉ opening.toList) (text : String) :
    Carries opening (written (opening ++ escapeData text)) text := by
  refine ⟨escapeData (String.ofList (withoutSequences text.toList)), ?_, oneLine_escapeData _,
    unescapeData_escapeData _⟩
  apply String.toList_injective
  simp only [toList_written, String.toList_append, withoutSequences_append h, escapeData,
    String.toList_ofList, withoutSequences_escape]
  rfl

/-- Lines that carry texts are read as they were written, each with its opening. -/
theorem rows_of_carries {opening : String} (hopening : OneLine opening.toList)
    {lines texts : List String} (h : List.Forall₂ (Carries opening) lines texts) :
    ∃ rs, rows (String.join lines).toList = rs ++ [[]] ∧ rs.length = texts.length ∧
      ∀ r ∈ rs, opening.toList <+: r := by
  induction h with
  | nil => exact ⟨[], rows_of_oneLine (by decide), rfl, by simp⟩
  | @cons line text lines texts hline _ ih =>
    obtain ⟨data, rfl, hdata, -⟩ := hline
    obtain ⟨rs, hrs, hlength, hall⟩ := ih
    have hone : OneLine (opening ++ data).toList := by
      rw [String.toList_append, oneLine_append]
      exact ⟨hopening, hdata⟩
    have hfirst : rows (opening ++ data ++ "\n").toList = [(opening ++ data).toList] ++ [[]] := by
      rw [String.toList_append]
      exact (rows_append_cons _ rfl []).trans (by rw [rows_of_oneLine hone]; rfl)
    refine ⟨(opening ++ data).toList :: rs, ?_, congrArg Nat.succ hlength, ?_⟩
    · rw [String.join_cons, String.toList_append, rows_append_of_rows_eq hfirst, hrs]
      rfl
    · refine List.forall_mem_cons.mpr ⟨?_, hall⟩
      rw [String.toList_append]
      exact List.prefix_append _ _

/-- **Commands carry their messages.** An error is one line that carries the message, and a message
for the log has one line for each of its lines, in order. Whatever a message holds, every line that
is read of it has its opening, and different texts have different data. -/
theorem commands_carry :
    (∀ message, Carries "::error::" (errorText message) message) ∧
    (∀ message, ∃ ls, debugText message = String.join ls ∧
      List.Forall₂ (Carries "::debug::") ls (Utterance.logLines message)) ∧
    (∀ message,
      (∃ row, rows (errorText message).toList = [row, []] ∧ "::error::".toList <+: row) ∧
      ∃ rs, rows (debugText message).toList = rs ++ [[]] ∧
        rs.length = (Utterance.logLines message).length ∧ ∀ r ∈ rs, "::debug::".toList <+: r) ∧
    Function.Injective escapeData := by
  have herror : ∀ message, Carries "::error::" (errorText message) message :=
    fun message => carries_written (by decide) message
  have hdebug : ∀ message, ∃ ls, debugText message = String.join ls ∧
      List.Forall₂ (Carries "::debug::") ls (Utterance.logLines message) := by
    intro message
    refine ⟨(Utterance.logLines message).map fun line => written (debugCommand line), rfl, ?_⟩
    rw [List.forall₂_map_left_iff, List.forall₂_same]
    exact fun line _ => carries_written (by decide) line
  refine ⟨herror, hdebug, fun message => ⟨?_, ?_⟩, ?_⟩
  · obtain ⟨rs, hrows, hlength, hall⟩ :=
      rows_of_carries (by decide) (List.Forall₂.cons (herror message) .nil)
    obtain ⟨row, rfl⟩ := List.length_eq_one_iff.mp hlength
    exact ⟨row, by simpa [String.join] using hrows, hall row List.mem_cons_self⟩
  · obtain ⟨ls, hls, hcarries⟩ := hdebug message
    rw [hls]
    exact rows_of_carries (by decide) hcarries
  · exact Function.LeftInverse.injective unescapeData_escapeData

end Workflow

end LintGate
