import LintGate.Proofs.Json.Stops

/-!
# The nesting of a document

How deep the brackets of a text are nested can be counted without reading it: brackets outside of
strings open and close, and the count never asks whether they match. `bracketDepth` is that count.
For a text that spells a value it is the nesting of the spelling (`bracketDepth_of_spells`), and
for any text at all it is what the reader's limit is about: a text that is not nested too deeply is
never refused for its nesting (`deepest_lt_of_nesting`).
-/

namespace LintGate.Json

open LintGate.Text

/-! ## Counting -/

/-- **The most brackets that are open at once** in a text, counted on from `o` open ones. In a
string nothing opens or closes, and a backslash takes the next character with it. -/
def mostOpen : (o : Nat) → (inString : Bool) → List Char → Nat
  | o, _, [] => o
  | o, true, '\\' :: _ :: r => mostOpen o true r
  | o, true, c :: r => mostOpen o (c != '"') r
  | o, false, c :: r =>
    if c = '"' then mostOpen o true r
    else if c = '[' ∨ c = '\x7b' then mostOpen (o + 1) false r
    else if c = ']' ∨ c = '\x7d' then max o (mostOpen (o - 1) false r)
    else mostOpen o false r

/-- **How deep the brackets of a document are nested.** -/
def bracketDepth (s : String) : Nat := mostOpen 0 false s.toList

theorem le_mostOpen (o : Nat) (inString : Bool) (s : List Char) : o ≤ mostOpen o inString s := by
  fun_induction mostOpen o inString s with
  | case1 => exact Nat.le_refl _
  | case5 _ _ _ _ _ ih => exact Nat.le_of_succ_le ih
  | case6 => exact Nat.le_max_left _ _
  | _ => assumption

@[simp] theorem mostOpen_bracket (o : Nat) (s : List Char) :
    mostOpen o false ('[' :: s) = mostOpen (o + 1) false s := by
  simp [mostOpen]

@[simp] theorem mostOpen_brace (o : Nat) (s : List Char) :
    mostOpen o false ('\x7b' :: s) = mostOpen (o + 1) false s := by
  simp [mostOpen]

@[simp] theorem mostOpen_closingBracket (o : Nat) (s : List Char) :
    mostOpen (o + 1) false (']' :: s) = max (o + 1) (mostOpen o false s) := by
  simp [mostOpen]

@[simp] theorem mostOpen_closingBrace (o : Nat) (s : List Char) :
    mostOpen (o + 1) false ('\x7d' :: s) = max (o + 1) (mostOpen o false s) := by
  simp [mostOpen]

/-- A character outside of strings that neither opens nor closes anything. -/
def Neutral (c : Char) : Prop := c ∉ ['"', '[', '\x7b', ']', '\x7d']

instance (c : Char) : Decidable (Neutral c) := inferInstanceAs (Decidable (¬_))

theorem mostOpen_cons_of_neutral {c : Char} (h : Neutral c) (o : Nat) (s : List Char) :
    mostOpen o false (c :: s) = mostOpen o false s := by
  simp only [Neutral, List.mem_cons, List.not_mem_nil, or_false, not_or] at h
  obtain ⟨hquote, hbracket, hbrace, hbracket', hbrace'⟩ := h
  simp [mostOpen, hquote, hbracket, hbrace, hbracket', hbrace']

theorem mostOpen_append_of_neutral {cs : List Char} (h : ∀ c ∈ cs, Neutral c) (o : Nat)
    (s : List Char) : mostOpen o false (cs ++ s) = mostOpen o false s := by
  induction cs with
  | nil => rfl
  | cons c cs ih =>
    rw [List.cons_append, mostOpen_cons_of_neutral (h c List.mem_cons_self)]
    exact ih fun d hd => h d (List.mem_cons_of_mem _ hd)

/-! ## Tokens -/

theorem Gap.mostOpen_append (gap : Gap) (o : Nat) (s : List Char) :
    mostOpen o false (gap.chars ++ s) = mostOpen o false s := by
  refine mostOpen_append_of_neutral (fun c hc => ?_) o s
  have hfiller := gap.isFiller_of_mem c hc
  simp only [isFiller, Bool.or_eq_true, beq_iff_eq] at hfiller
  rcases hfiller with ((rfl | rfl) | rfl) | rfl <;> decide

theorem Word.mostOpen_append (w : Word) (o : Nat) (s : List Char) :
    mostOpen o false (w.chars ++ s) = mostOpen o false s := by
  have hwords : ∀ e ∈ words, ∀ c ∈ e.1, Neutral c := by simp [words, Neutral]
  exact mostOpen_append_of_neutral (hwords _ w.mem_words) o s

theorem neutral_of_mem_digitChars {ds : List (Fin 10)} : ∀ c ∈ digitChars ds, Neutral c := by
  have hdigit : ∀ d : Fin 10, Neutral (digitChar d) := by decide
  intro c hc
  obtain ⟨d, -, rfl⟩ := List.mem_map.1 hc
  exact hdigit d

theorem Numeral.mostOpen_append (n : Numeral) (o : Nat) (s : List Char) :
    mostOpen o false (n.chars ++ s) = mostOpen o false s := by
  have hminus : ∀ c ∈ (if n.negative then ['-'] else []), Neutral c := by
    cases n.negative with
    | false => exact fun c hc => absurd hc List.not_mem_nil
    | true => exact List.forall_mem_singleton.2 (by decide)
  have hfraction : ∀ c ∈ fractionChars n.fraction, Neutral c := by
    unfold fractionChars
    split
    · simp
    · exact List.forall_mem_cons.2 ⟨by decide, neutral_of_mem_digitChars⟩
  have hexponent : ∀ c ∈ exponentChars n.exponent, Neutral c := by
    cases n.exponent with
    | none => simp [exponentChars]
    | some e =>
      have hsign : ∀ c ∈ e.sign.chars, Neutral c := by
        cases e.sign with
        | absent => exact fun c hc => absurd hc List.not_mem_nil
        | plus => exact List.forall_mem_singleton.2 (by decide)
        | minus => exact List.forall_mem_singleton.2 (by decide)
      have hletter : Neutral e.letter := by
        rcases e.letter_eq with h | h <;> rw [h] <;> decide
      exact List.forall_mem_cons.2 ⟨hletter,
        List.forall_mem_append.2 ⟨hsign, neutral_of_mem_digitChars⟩⟩
  refine mostOpen_append_of_neutral ?_ o s
  exact List.forall_mem_append.2 ⟨hminus, List.forall_mem_append.2 ⟨neutral_of_mem_digitChars,
    List.forall_mem_append.2 ⟨hfraction, hexponent⟩⟩⟩

/-- A character inside a string that does not end it. -/
theorem mostOpen_inside {c : Char} (hquote : c ≠ '"') (hbackslash : c ≠ '\\') (o : Nat)
    (s : List Char) : mostOpen o true (c :: s) = mostOpen o true s := by
  rw [mostOpen.eq_3 o c s fun _ _ h _ => hbackslash h, bne_iff_ne.2 hquote]

/-- A hexadecimal digit is neither a quote nor a backslash. -/
theorem ne_of_hexValue {c : Char} {n : Nat} (h : hexValue? c = some n) : c ≠ '"' ∧ c ≠ '\\' := by
  constructor <;> rintro rfl <;> exact absurd h (by decide +revert)

/-- In a string nothing opens or closes. -/
theorem mostOpen_glyphs (gs : List Glyph) (o : Nat) (s : List Char) :
    mostOpen o true (gs.flatMap Glyph.chars ++ '"' :: s) = mostOpen o false s := by
  induction gs with
  | nil => simp [mostOpen]
  | cons g gs ih =>
    rw [List.flatMap_cons, List.append_assoc]
    cases g with
    | plain c ne_quote ne_backslash visible =>
      exact (mostOpen_inside ne_quote ne_backslash o _).trans ih
    | short letter c escapes => exact (mostOpen.eq_2 o letter _).trans ih
    | unit a b c d n reads =>
      obtain ⟨x, ha, y, hb, z, hc, w, hd, -⟩ : ∃ x, hexValue? a = some x ∧
          ∃ y, hexValue? b = some y ∧ ∃ z, hexValue? c = some z ∧
            ∃ w, hexValue? d = some w ∧ _ := by
        simpa [unit?, Option.bind_eq_some_iff] using reads
      simp only [Glyph.chars, List.cons_append, List.nil_append]
      rw [mostOpen.eq_2, mostOpen_inside (ne_of_hexValue ha).1 (ne_of_hexValue ha).2,
        mostOpen_inside (ne_of_hexValue hb).1 (ne_of_hexValue hb).2,
        mostOpen_inside (ne_of_hexValue hc).1 (ne_of_hexValue hc).2,
        mostOpen_inside (ne_of_hexValue hd).1 (ne_of_hexValue hd).2, ih]

theorem mostOpen_quoted (gs : List Glyph) (o : Nat) (s : List Char) :
    mostOpen o false (quoted gs ++ s) = mostOpen o false s := by
  have h := mostOpen_glyphs gs o s
  simpa [quoted, mostOpen] using h

theorem Key.mostOpen_append (k : Key) (o : Nat) (s : List Char) :
    mostOpen o false (k.chars ++ s) = mostOpen o false s := by
  simp only [chars, List.append_assoc, List.cons_append]
  rw [mostOpen_quoted, k.before.mostOpen_append, mostOpen_cons_of_neutral (by decide),
    k.behind.mostOpen_append]

/-! ## Values -/

mutual

/-- **Behind a value as many brackets are open as before it**, and in between its nesting more. -/
theorem Spelling.mostOpen_append (sp : Spelling) (o : Nat) (s : List Char) :
    mostOpen o false (sp.text ++ s) = max (o + sp.nesting) (mostOpen o false s) := by
  have hle := le_mostOpen o false s
  cases sp with
  | word w => rw [Spelling.text, w.mostOpen_append, Spelling.nesting, Nat.add_zero,
    Nat.max_eq_right hle]
  | number n => rw [Spelling.text, n.mostOpen_append, Spelling.nesting, Nat.add_zero,
    Nat.max_eq_right hle]
  | string gs => rw [Spelling.text, mostOpen_quoted, Spelling.nesting, Nat.add_zero,
    Nat.max_eq_right hle]
  | emptyArray gap =>
    simp [Spelling.text, gap.mostOpen_append, Spelling.nesting]
  | array gap is =>
    simp only [Spelling.text, List.cons_append, List.append_assoc, mostOpen_bracket,
      gap.mostOpen_append, is.mostOpen_append, Spelling.nesting]
    congr 1
    omega
  | emptyObject gap =>
    simp [Spelling.text, gap.mostOpen_append, Spelling.nesting]
  | object gap ms =>
    simp only [Spelling.text, List.cons_append, List.append_assoc, mostOpen_brace,
      gap.mostOpen_append, ms.mostOpen_append, Spelling.nesting]
    congr 1
    omega

theorem Items.mostOpen_append (is : Items) (o : Nat) (s : List Char) :
    mostOpen (o + 1) false (is.text ++ s) = max (o + 1 + is.nesting) (mostOpen o false s) := by
  cases is with
  | last v gap =>
    simp only [Items.text, List.append_assoc, List.cons_append, List.nil_append,
      v.mostOpen_append, gap.mostOpen_append, mostOpen_closingBracket, Items.nesting]
    omega
  | more v before behind is =>
    simp only [Items.text, List.append_assoc, List.cons_append, v.mostOpen_append,
      before.mostOpen_append, behind.mostOpen_append, is.mostOpen_append, Items.nesting,
      mostOpen_cons_of_neutral (c := ',') (by decide)]
    omega

theorem Members.mostOpen_append (ms : Members) (o : Nat) (s : List Char) :
    mostOpen (o + 1) false (ms.text ++ s) = max (o + 1 + ms.nesting) (mostOpen o false s) := by
  cases ms with
  | last k v gap =>
    simp only [Members.text, List.append_assoc, List.cons_append, List.nil_append,
      k.mostOpen_append, v.mostOpen_append, gap.mostOpen_append, mostOpen_closingBrace,
      Members.nesting]
    omega
  | more k v before behind ms =>
    simp only [Members.text, List.append_assoc, List.cons_append, k.mostOpen_append,
      v.mostOpen_append, before.mostOpen_append, behind.mostOpen_append, ms.mostOpen_append,
      Members.nesting, mostOpen_cons_of_neutral (c := ',') (by decide)]
    omega

end

/-- **The nesting of a spelling is the nesting of its document.** -/
theorem bracketDepth_of_spells {sp : Spelling} {s : String} (h : sp.Spells s) :
    bracketDepth s = sp.nesting := by
  obtain ⟨before, behind, hs⟩ := h
  have hend := behind.mostOpen_append 0 []
  rw [List.append_nil] at hend
  rw [bracketDepth, hs, before.mostOpen_append, sp.mostOpen_append, hend]
  simp [mostOpen]

/-! ## Refusals -/

variable {depth room : Nat} {s rest : List Char} {b : Bracket}

theorem numeral_ne_nesting (negative : Bool) (whole fraction : List Nat)
    (exponent : Option (Bool × List Nat)) (b : Bracket) :
    numeral negative whole fraction exponent ≠ .error (.nesting b) := by
  unfold numeral
  split
  · split <;> simp
  · simp

/-- Words and numbers are never nested. -/
theorem scalar_ne_nesting (s : List Char) (b : Bracket) : scalar s ≠ .error (.nesting b) := by
  unfold scalar
  split
  · simp
  · unfold number
    dsimp only
    split
    · simp
    · split <;>
      · intro h
        exact numeral_ne_nesting _ _ _ _ b (eq_error_of_map_eq_error h)

/-- Where a production refuses a text for its nesting, too many brackets are open at once. -/
def Deep {α : Type} (production : (room : Nat) → List Char → Reading α) : Prop :=
  ∀ {room : Nat} {s : List Char} {b : Bracket}, production room s = .error (.nesting b) →
    ∀ o, o + room < mostOpen o false s

theorem deep_value_succ (hitems : Deep (items depth)) (hmembers : Deep (members depth)) :
    Deep (value (depth + 1)) := by
  intro room s b h o
  cases valueStops_of_error h with
  | scalar fails => exact absurd fails (scalar_ne_nesting s b)
  | string f place eq_flaw => cases eq_flaw
  | noArray r _ =>
    rw [mostOpen_bracket]
    exact le_mostOpen (o + 1) false r
  | noObject r _ =>
    rw [mostOpen_brace]
    exact le_mostOpen (o + 1) false r
  -- inside a bracket there is room for one less, and one more is open
  | items gap fails =>
    have hdeep := hitems fails (o + 1)
    rw [mostOpen_bracket, gap.mostOpen_append]
    omega
  | members gap fails =>
    have hdeep := hmembers fails (o + 1)
    rw [mostOpen_brace, gap.mostOpen_append]
    omega

/-- What stands behind a complete item counts. -/
theorem ItemBefore.mostOpen_le (i : ItemBefore) (o : Nat) (s : List Char) :
    mostOpen o false s ≤ mostOpen o false (i.chars ++ s) := by
  simp only [chars, List.append_assoc, List.cons_append]
  rw [i.value.mostOpen_append, i.before.mostOpen_append, mostOpen_cons_of_neutral (by decide),
    i.behind.mostOpen_append]
  exact Nat.le_max_right _ _

theorem deep_items_succ (hvalues : Deep (value depth)) (hitems : Deep (items depth)) :
    Deep (items (depth + 1)) := by
  intro room s b h o
  cases itemsStop_of_error h with
  | flaw place eq_flaw => cases eq_flaw
  | first fails => exact hvalues fails o
  | behind i fails => exact Nat.lt_of_lt_of_le (hitems fails o) (i.mostOpen_le o _)

theorem deep_members_succ (hvalues : Deep (value depth)) (hmembers : Deep (members depth)) :
    Deep (members (depth + 1)) := by
  intro room s b h o
  cases membersStop_of_error h with
  | flaw f place eq_flaw => cases eq_flaw
  | first key fails =>
    rw [key.mostOpen_append]
    exact hvalues fails o
  | behind m fails =>
    rw [MemberBefore.chars, List.append_assoc, m.key.mostOpen_append]
    exact Nat.lt_of_lt_of_le (hmembers fails o) (m.item.mostOpen_le o _)

theorem all_deep (depth : Nat) :
    Deep (value depth) ∧ Deep (items depth) ∧ Deep (members depth) := by
  induction depth with
  | zero => exact ⟨fun h => (by cases h), fun h => (by cases h), fun h => (by cases h)⟩
  | succ depth ih =>
    obtain ⟨hvalues, hitems, hmembers⟩ := ih
    exact ⟨deep_value_succ hitems hmembers, deep_items_succ hvalues hitems,
      deep_members_succ hvalues hmembers⟩

/-- Blanks make no difference to the count. -/
theorem mostOpen_skip (o : Nat) (s : List Char) :
    mostOpen o false (skip s) = mostOpen o false s := by
  obtain ⟨gap, hgap⟩ := exists_gap s
  conv => rhs; rw [hgap]
  rw [gap.mostOpen_append]

/-- **A document that is refused for its nesting is nested too deeply.** -/
theorem deepest_lt_of_nesting {s : String} {b : Bracket} (h : read s = .error (.nesting b)) :
    deepest < bracketDepth s := by
  have hdocument : document deepest s.toList = .error (.nesting b) := by
    unfold read readWithin at h
    split at h <;> cases h
    assumption
  have hdeep := (all_deep _).1 (value_of_document_error hdocument (by simp)) 0
  rwa [mostOpen_skip, Nat.zero_add] at hdeep

end LintGate.Json
