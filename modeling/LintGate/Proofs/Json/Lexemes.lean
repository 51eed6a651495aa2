import LintGate.Proofs.Json.Spelling

/-!
# Reading tokens

Each production for a token is shown to read what the token's spelling writes, and to read nothing
else: strings (`string_eq_ok_iff`), words and numbers (`scalar_word`, `scalar_numeral`,
`exists_spelling_of_scalar`).

A string ends at its quote and a word at its last letter, whatever follows. A number goes on as
long as digits follow, so it is read to its end only when what follows cannot belong to it. In a
document that is a blank, a comma or a closing bracket, or nothing at all: `Bounded` says so.
-/

namespace LintGate.Json

open LintGate.Text

/-! ## Results -/

theorem exists_of_map_eq_ok {ε α β : Type} {x : Except ε α} {f : α → β} {b : β}
    (h : x.map f = .ok b) : ∃ a, x = .ok a ∧ f a = b := by
  cases x with
  | error e => cases h
  | ok a => exact ⟨a, rfl, Except.ok.inj h⟩

theorem eq_error_of_map_eq_error {ε α β : Type} {x : Except ε α} {f : α → β} {e : ε}
    (h : x.map f = .error e) : x = .error e := by
  cases x with
  | error e' => rw [Except.error.inj h]
  | ok a => cases h

/-! ## Blanks -/

/-- A text does not begin with a blank. -/
def Solid (s : List Char) : Prop := ∀ c ∈ s.head?, isFiller c = false

theorem solid_cons {c : Char} {s : List Char} (h : isFiller c = false) : Solid (c :: s) := by
  simpa [Solid] using h

/-- Blanks are skipped, all of them and no more. -/
theorem skip_gap (gap : Gap) {s : List Char} (h : Solid s) : skip (gap.chars ++ s) = s := by
  unfold skip
  rw [List.dropWhile_append_of_pos gap.isFiller_of_mem]
  cases s with
  | nil => rfl
  | cons c r => exact List.dropWhile_cons_of_neg (by simpa using h c rfl)

theorem skip_gap_nil (gap : Gap) : skip gap.chars = [] := by
  simpa using skip_gap gap (s := []) (by simp [Solid])

/-- What is skipped is a gap. -/
theorem exists_gap (s : List Char) : ∃ gap : Gap, s = gap.chars ++ skip s :=
  ⟨⟨s.takeWhile isFiller, List.all_eq_true.1 List.all_takeWhile⟩,
    List.takeWhile_append_dropWhile.symm⟩

/-! ## Strings -/

/-- **Glyphs are read up to the quote behind them.** -/
theorem pieces_glyphs (start : List Char) (gs : List Glyph) (rest : List Char) :
    pieces start (gs.flatMap Glyph.chars ++ '"' :: rest) = .ok (gs.map Glyph.piece, rest) := by
  induction gs with
  | nil =>
    rw [List.flatMap_nil, List.nil_append, pieces.eq_def]
    rfl
  | cons g gs ih =>
    rw [List.flatMap_cons, List.append_assoc]
    -- four digits are taken for a code unit only if something follows them
    have hne : gs.flatMap Glyph.chars ++ '"' :: rest ≠ [] := by simp
    generalize gs.flatMap Glyph.chars ++ '"' :: rest = s at ih hne
    cases g with
    | plain c ne_quote ne_backslash visible =>
      have hvisible : ¬c.toNat < 0x20 := Nat.not_lt.2 visible
      simp only [Glyph.chars, List.singleton_append]
      rw [pieces.eq_def]
      simp [ne_quote, ne_backslash, hvisible, ih, Except.map, Glyph.piece]
    | short letter c escapes =>
      have hletter : letter ≠ 'u' := by
        rintro rfl
        have hnone : shortEscape? 'u' = none := by decide
        rw [hnone] at escapes
        cases escapes
      simp only [Glyph.chars, List.cons_append, List.nil_append]
      rw [pieces.eq_def]
      simp [hletter, escapes, ih, Except.map, Glyph.piece]
    | unit a b c d n reads =>
      simp only [Glyph.chars, List.cons_append, List.nil_append]
      rw [pieces.eq_4 start a b c d s n reads hne, ih]
      rfl

/-- One more glyph in front of what is read. -/
theorem exists_glyphs_cons {start r : List Char} {ps : List Piece} {rest : List Char} (g : Glyph)
    (ih : ∀ {ps : List Piece}, pieces start r = .ok (ps, rest) →
      ∃ gs : List Glyph, r = gs.flatMap Glyph.chars ++ '"' :: rest ∧ gs.map Glyph.piece = ps)
    (h : (pieces start r).map (fun x => (g.piece :: x.1, x.2)) = .ok (ps, rest)) :
    ∃ gs : List Glyph,
      g.chars ++ r = gs.flatMap Glyph.chars ++ '"' :: rest ∧ gs.map Glyph.piece = ps := by
  obtain ⟨⟨qs, r'⟩, hr, heq⟩ := exists_of_map_eq_ok h
  cases heq
  obtain ⟨gs, hgs, hps⟩ := ih hr
  exact ⟨g :: gs, by rw [List.flatMap_cons, hgs, List.append_assoc], by rw [List.map_cons, hps]⟩

/-- What is read between quotes are glyphs. -/
theorem exists_glyphs_of_pieces {start s : List Char} {ps : List Piece} {rest : List Char}
    (h : pieces start s = .ok (ps, rest)) :
    ∃ gs : List Glyph, s = gs.flatMap Glyph.chars ++ '"' :: rest ∧ gs.map Glyph.piece = ps := by
  fun_induction pieces start s generalizing ps with
  | case1 | case2 | case3 | case5 | case6 | case8 | case10 => cases h
  | case4 a b c d r n reads _ ih => exact exists_glyphs_cons (.unit a b c d n reads) ih h
  | case7 letter r _ _ c escapes ih => exact exists_glyphs_cons (.short letter c escapes) ih h
  | case9 r =>
    cases h
    exact ⟨[], rfl, rfl⟩
  | case11 c r _ _ hend hshort ne_quote hvisible ih =>
    -- the cases above have taken every backslash
    have ne_backslash : c ≠ '\\' := by
      rintro rfl
      cases r with
      | nil => exact hend rfl rfl
      | cons d r => exact hshort d r rfl rfl
    exact exists_glyphs_cons (.plain c ne_quote ne_backslash (Nat.not_lt.1 hvisible)) ih h

/-- **A string is read exactly as its glyphs spell it.** -/
theorem string_eq_ok_iff {start s : List Char} {t : String} {rest : List Char} :
    string start s = .ok (t, rest) ↔
      ∃ gs : List Glyph, s = gs.flatMap Glyph.chars ++ '"' :: rest ∧ spelled gs = t := by
  constructor
  · intro h
    obtain ⟨⟨ps, r⟩, hp, heq⟩ := exists_of_map_eq_ok h
    cases heq
    obtain ⟨gs, hs, hps⟩ := exists_glyphs_of_pieces hp
    exact ⟨gs, hs, by rw [spelled, hps]⟩
  · rintro ⟨gs, rfl, rfl⟩
    rw [string, pieces_glyphs]
    rfl

theorem exists_flaw_of_pieces {start s : List Char} {stop : Stop}
    (h : pieces start s = .error stop) : ∃ f place, stop = .flaw f place := by
  fun_induction pieces start s with
  | case4 _ _ _ _ _ _ _ _ ih | case7 _ _ _ _ _ _ ih | case11 _ _ _ _ _ _ _ _ ih =>
    exact ih (eq_error_of_map_eq_error h)
  | case9 => cases h
  | _ => exact ⟨_, _, (Except.error.inj h).symm⟩

/-- A string that cannot be read has a flaw. -/
theorem exists_flaw_of_string {start s : List Char} {stop : Stop}
    (h : string start s = .error stop) : ∃ f place, stop = .flaw f place :=
  exists_flaw_of_pieces (eq_error_of_map_eq_error h)

/-! ## Digits -/

theorem isDigit_digitChar : ∀ d : Fin 10, (digitChar d).isDigit = true := by decide

/-- A digit is the character of its value. -/
theorem exists_digit_of_isDigit {c : Char} (h : c.isDigit = true) :
    ∃ d : Fin 10, c = digitChar d := by
  have hbounds : 48 ≤ c.toNat ∧ c.toNat ≤ 57 := by
    simpa [Char.isDigit, UInt32.le_iff_toNat_le] using h
  refine ⟨⟨c.toNat - 48, by omega⟩, Char.toNat_inj.1 ?_⟩
  rw [digitChar, Nat.toNat_digitChar_of_lt_ten (by omega)]
  exact (Nat.add_sub_cancel' hbounds.1).symm

/-- A text does not begin with a digit. -/
def NoDigit (s : List Char) : Prop := ∀ c ∈ s.head?, c.isDigit = false

/-- **Digits are read up to what is none.** -/
theorem spanDigits_of_noDigit (ds : List (Fin 10)) {r : List Char} (hr : NoDigit r) :
    spanDigits asciiDigit? (digitChars ds ++ r) = (ds.map Fin.val, r) := by
  refine spanDigits_digitChars asciiDigit?_digitChar ds fun c hc => ?_
  simp [asciiDigit?, hr c hc]

/-- What is read as digits are digits, and what is left begins with none. -/
theorem exists_digits (s : List Char) :
    ∃ (ds : List (Fin 10)) (r : List Char), s = digitChars ds ++ r ∧ NoDigit r := by
  induction s with
  | nil => exact ⟨[], [], rfl, by simp [NoDigit]⟩
  | cons c s ih =>
    by_cases hc : c.isDigit = true
    · obtain ⟨d, rfl⟩ := exists_digit_of_isDigit hc
      obtain ⟨ds, r, rfl, hr⟩ := ih
      exact ⟨d :: ds, r, rfl, hr⟩
    · exact ⟨[], c :: s, rfl, by simpa [NoDigit] using hc⟩

/-! ## Numbers -/

/-- What may follow a value: a blank, a comma, a closing bracket or nothing. -/
def Bounded (s : List Char) : Prop :=
  ∀ c ∈ s.head?, isFiller c = true ∨ c = ',' ∨ c = ']' ∨ c = '\x7d'

/-- What may follow a value goes on with no number. -/
theorem Bounded.noDigit {s : List Char} (h : Bounded s) :
    NoDigit s ∧ ∀ c ∈ s.head?, c ≠ '.' ∧ c ≠ 'e' ∧ c ≠ 'E' := by
  refine ⟨fun c hc => ?_, fun c hc => ?_⟩ <;>
  · have hcases := h c hc
    simp only [isFiller, Bool.or_eq_true, beq_iff_eq] at hcases
    rcases hcases with ((((rfl | rfl) | rfl) | rfl) | rfl | rfl | rfl) <;> decide

theorem digitChar_ne_zero : ∀ d : Fin 10, d ≠ 0 → digitChar d ≠ '0' := by decide

/-- **The integer part is read to its end.** -/
theorem integerPart?_digitChars {ds : List (Fin 10)} (hne : ds ≠ [])
    (hzero : ds.head? = some 0 → ds = [0]) {r : List Char} (hr : NoDigit r) :
    integerPart? (digitChars ds ++ r) = some (ds.map Fin.val, r) := by
  obtain ⟨d, ds, rfl⟩ := List.exists_cons_of_ne_nil hne
  by_cases hd : d = 0
  · subst hd
    rw [hzero rfl]
    rfl
  · have hspan := spanDigits_of_noDigit (d :: ds) hr
    simp only [digitChars, List.map_cons, List.cons_append] at hspan ⊢
    rw [integerPart?.eq_2 _ _ (digitChar_ne_zero d hd), if_pos (isDigit_digitChar d), hspan]

/-- What is read as an integer part is one, and unless it is a lone zero no digit follows. -/
theorem exists_digits_of_integerPart {s r : List Char} {whole : List Nat}
    (h : integerPart? s = some (whole, r)) :
    ∃ ds : List (Fin 10), ds ≠ [] ∧ (ds.head? = some 0 → ds = [0]) ∧ (ds = [0] ∨ NoDigit r) ∧
      ds.map Fin.val = whole ∧ s = digitChars ds ++ r := by
  fun_cases integerPart? s with
  | case1 r' =>
    cases h
    exact ⟨[0], by decide, fun _ => rfl, .inl rfl, rfl, rfl⟩
  | case2 c r' hc hdigit =>
    obtain ⟨d, rfl⟩ := exists_digit_of_isDigit hdigit
    obtain ⟨ds, t, rfl, ht⟩ := exists_digits r'
    have hd : d ≠ 0 := by
      rintro rfl
      exact hc rfl
    have hhead : (d :: ds).head? = some 0 → d :: ds = [0] := fun h => absurd (Option.some.inj h) hd
    have hread := integerPart?_digitChars (List.cons_ne_nil d ds) hhead ht
    rw [show digitChar d :: (digitChars ds ++ t) = digitChars (d :: ds) ++ t from rfl, hread] at h
    cases h
    exact ⟨d :: ds, List.cons_ne_nil d ds, hhead, .inr ht, rfl, rfl⟩
  | case3 c r' hc hdigit =>
    rw [integerPart?.eq_2 _ _ hc, if_neg hdigit] at h
    cases h
  | case4 => cases h

/-- **A fraction is read to its end.** -/
theorem fractionPart_fractionChars (ds : List (Fin 10)) {r : List Char} (hr : NoDigit r)
    (hpoint : '.' ∉ r.head?) :
    fractionPart (fractionChars ds ++ r) = (ds.map Fin.val, r) := by
  unfold fractionChars
  split
  next hds =>
    subst hds
    rw [List.nil_append, fractionPart.eq_2]
    · rfl
    · rintro r' rfl
      exact hpoint rfl
  next hds =>
    obtain ⟨d, ds, rfl⟩ := List.exists_cons_of_ne_nil hds
    rw [List.cons_append, fractionPart.eq_1, spanDigits_of_noDigit _ hr]
    rfl

/-- What is read as a fraction is one. -/
theorem exists_digits_of_fractionPart (s : List Char) :
    ∃ (ds : List (Fin 10)) (r : List Char), s = fractionChars ds ++ r ∧
      fractionPart s = (ds.map Fin.val, r) := by
  fun_cases fractionPart s with
  | case1 r rest h => exact ⟨[], '.' :: r, rfl, rfl⟩
  | case2 r ds rest hds h =>
    obtain ⟨fs, t, rfl, ht⟩ := exists_digits r
    rw [spanDigits_of_noDigit fs ht] at h
    cases h
    refine ⟨fs, rest, ?_, rfl⟩
    rw [fractionChars, if_neg fun hnil => hds (by rw [hnil]; rfl)]
    rfl
  | case3 => exact ⟨[], s, rfl, rfl⟩

/-- A sign in front of a digit is told from it. -/
theorem signPart_chars (sign : Sign) (d : Fin 10) (r : List Char) :
    signPart (sign.chars ++ digitChar d :: r) = (sign.isNegative, digitChar d :: r) := by
  have hsigns : ∀ d : Fin 10, digitChar d ≠ '-' ∧ digitChar d ≠ '+' := by decide
  cases sign with
  | absent =>
    refine signPart.eq_3 _ ?_ ?_ <;> intro _ h
    · exact (hsigns d).1 (List.cons.inj h).1
    · exact (hsigns d).2 (List.cons.inj h).1
  | plus => rfl
  | minus => rfl

theorem exists_sign (s : List Char) :
    ∃ (sign : Sign) (r : List Char), s = sign.chars ++ r ∧ signPart s = (sign.isNegative, r) := by
  fun_cases signPart s with
  | case1 r => exact ⟨.minus, r, rfl, rfl⟩
  | case2 r => exact ⟨.plus, r, rfl, rfl⟩
  | case3 => exact ⟨.absent, s, rfl, rfl⟩

/-- The sign and the digits of an exponent. -/
def Exponent.parts (e : Exponent) : Bool × List Nat := (e.sign.isNegative, e.digits.map Fin.val)

/-- **An exponent is read to its end.** -/
theorem exponentPart?_exponentChars (e : Option Exponent) {r : List Char} (hr : NoDigit r)
    (hletter : ∀ c ∈ r.head?, c ≠ 'e' ∧ c ≠ 'E') :
    exponentPart? (exponentChars e ++ r) = e.map fun e => (e.parts.1, e.parts.2, r) := by
  cases e with
  | none =>
    cases r with
    | nil => rfl
    | cons c r =>
      have hc := hletter c rfl
      simp [exponentChars, exponentPart?, hc.1, hc.2]
  | some e =>
    obtain ⟨d, ds, hds⟩ := List.exists_cons_of_ne_nil e.digits_ne_nil
    have hspan := spanDigits_of_noDigit e.digits hr
    have hsign := signPart_chars e.sign d (digitChars ds ++ r)
    simp only [hds, digitChars, List.map_cons, List.cons_append] at hspan hsign
    simp only [exponentChars, Exponent.chars, hds, digitChars, List.map_cons, List.cons_append,
      List.append_assoc, exponentPart?, if_pos e.letter_eq, hsign, hspan]
    simp [Exponent.parts, hds]

theorem exists_exponent (s : List Char) :
    ∃ (e : Option Exponent) (r : List Char), s = exponentChars e ++ r ∧
      exponentPart? s = e.map fun e => (e.parts.1, e.parts.2, r) := by
  fun_cases exponentPart? s with
  | case1 c t hc negative t' hsign u hspan => exact ⟨none, c :: t, rfl, rfl⟩
  | case2 c t hc negative t' hsign ds u hds hspan =>
    obtain ⟨sign, t'', rfl, hsign'⟩ := exists_sign t
    rw [hsign'] at hsign
    cases hsign
    obtain ⟨es, v, rfl, hv⟩ := exists_digits t'
    rw [spanDigits_of_noDigit es hv] at hspan
    cases hspan
    have hne : es ≠ [] := fun hnil => hds (by rw [hnil]; rfl)
    exact ⟨some ⟨c, hc, sign, es, hne⟩, u, by simp [exponentChars, Exponent.chars], rfl⟩
  | case3 c t hc => exact ⟨none, c :: t, rfl, rfl⟩
  | case4 => exact ⟨none, [], rfl, rfl⟩

/-- A number with an exponent is put together with the exponent's value. -/
theorem numeral_of_exponent (negative : Bool) (whole fraction : List Nat) (e : Exponent) :
    numeral negative whole fraction (some e.parts) =
      .ok (.frac (.ofDecimal negative (numberOf (whole ++ fraction)) (whole ++ fraction).length
        (e.value - fraction.length))) := by
  cases hs : e.sign <;> cases fraction <;>
    simp [numeral, Exponent.parts, Exponent.value, hs, Sign.isNegative]

/-- The parts of a number are put together as its value says. -/
theorem numeral_eq_value (n : Numeral) :
    numeral n.negative (n.whole.map Fin.val) (n.fraction.map Fin.val)
      (n.exponent.map Exponent.parts) = .ok n.value := by
  obtain ⟨negative, whole, hne, hzero, fraction, exponent, hlength⟩ := n
  cases fraction with
  | nil =>
    cases exponent with
    | none =>
      have hread : readNumeral (whole.map Fin.val) = .ok (numberOf (whole.map Fin.val)) :=
        readNumeral_eq_ok_iff.2 ⟨by simpa using hlength rfl rfl, rfl⟩
      simp [numeral, hread, Numeral.value, Numeral.integer]
    | some e =>
      rw [Option.map_some, numeral_of_exponent]
      simp [Numeral.value, Numeral.binary]
  | cons d ds =>
    cases exponent with
    | none => simp [numeral, Numeral.value, Numeral.binary]
    | some e =>
      rw [Option.map_some, numeral_of_exponent]
      simp [Numeral.value, Numeral.binary]

/-- A minus in front of a digit is told from it. -/
theorem minusPart_digitChar (negative : Bool) (d : Fin 10) (r : List Char) :
    minusPart ((if negative then ['-'] else []) ++ digitChar d :: r) =
      (negative, digitChar d :: r) := by
  have hminus : ∀ d : Fin 10, digitChar d ≠ '-' := by decide
  cases negative with
  | false => exact minusPart.eq_2 _ fun _ h => hminus d (List.cons.inj h).1
  | true => rfl

theorem exists_minus (s : List Char) :
    ∃ (negative : Bool) (t : List Char),
      s = (if negative then ['-'] else []) ++ t ∧ minusPart s = (negative, t) := by
  fun_cases minusPart s with
  | case1 r => exact ⟨true, r, rfl, rfl⟩
  | case2 => exact ⟨false, s, rfl, rfl⟩

/-- What the parts of a number are read as is put together. -/
theorem number_eq_map {s t u r : List Char} {negative : Bool} {whole fraction : List Nat}
    {e : Option Exponent} (hminus : minusPart s = (negative, t))
    (hwhole : integerPart? t = some (whole, u))
    (hfraction : fractionPart u = (fraction, exponentChars e ++ r))
    (hexponent : exponentPart? (exponentChars e ++ r) =
      e.map fun e => (e.parts.1, e.parts.2, r)) :
    number s = (numeral negative whole fraction (e.map Exponent.parts)).map fun v => (v, r) := by
  rw [number, hminus]
  simp only [hwhole, hfraction, hexponent]
  cases e <;> rfl

/-- **A number is read to its end** when what follows goes on with no number. -/
theorem number_numeral (n : Numeral) {rest : List Char} (h : Bounded rest) :
    number (n.chars ++ rest) = .ok (n.value, rest) := by
  obtain ⟨hdigit, hother⟩ := h.noDigit
  -- each part ends where the next one begins, so the parts are taken from the last one on
  have hbehind : NoDigit (exponentChars n.exponent ++ rest) ∧
      '.' ∉ (exponentChars n.exponent ++ rest).head? := by
    cases he : n.exponent with
    | none => exact ⟨hdigit, fun hpoint => (hother _ hpoint).1 rfl⟩
    | some e =>
      rcases e with ⟨letter, rfl | rfl, _⟩ <;> simp [NoDigit, exponentChars, Exponent.chars]
  have hpoint : NoDigit (fractionChars n.fraction ++ (exponentChars n.exponent ++ rest)) := by
    by_cases hf : n.fraction = []
    · simpa [fractionChars, hf] using hbehind.1
    · simp [fractionChars, hf, NoDigit]
  have hminus : minusPart (n.chars ++ rest) =
      (n.negative, digitChars n.whole ++
        (fractionChars n.fraction ++ (exponentChars n.exponent ++ rest))) := by
    obtain ⟨d, ds, hds⟩ := List.exists_cons_of_ne_nil n.whole_ne_nil
    simp only [Numeral.chars, hds, digitChars, List.map_cons, List.cons_append, List.append_assoc]
    exact minusPart_digitChar n.negative d _
  have hwhole := integerPart?_digitChars n.whole_ne_nil n.whole_eq_zero hpoint
  have hfraction := fractionPart_fractionChars n.fraction hbehind.1 hbehind.2
  have hexponent := exponentPart?_exponentChars n.exponent hdigit fun c hc => (hother c hc).2
  rw [number_eq_map hminus hwhole hfraction hexponent, numeral_eq_value]
  rfl

/-- An integer that is read is not too long. -/
theorem length_le_of_numeral {negative : Bool} {whole fraction : List (Fin 10)}
    {e : Option Exponent} {v : Json}
    (h : numeral negative (whole.map Fin.val) (fraction.map Fin.val) (e.map Exponent.parts) = .ok v)
    (hf : fraction = []) (he : e = none) : whole.length ≤ longest := by
  subst hf he
  unfold numeral at h
  cases hread : readNumeral (whole.map Fin.val) with
  | error count => simp [hread] at h
  | ok n => simpa using (readNumeral_eq_ok_iff.1 hread).1

/-- What is read as a number is one. -/
theorem exists_numeral_of_number {s : List Char} {v : Json} {rest : List Char}
    (h : number s = .ok (v, rest)) : ∃ n : Numeral, s = n.chars ++ rest ∧ n.value = v := by
  obtain ⟨negative, t, hs, hminus⟩ := exists_minus s
  cases hw : integerPart? t with
  | none =>
    rw [number, hminus] at h
    simp only [hw] at h
    cases h
  | some x =>
    obtain ⟨whole, u⟩ := x
    obtain ⟨ws, hne, hzero, -, rfl, ht⟩ := exists_digits_of_integerPart hw
    obtain ⟨fs, w, hu, hfraction⟩ := exists_digits_of_fractionPart u
    obtain ⟨e, r, rfl, hexponent⟩ := exists_exponent w
    rw [number_eq_map hminus hw hfraction hexponent] at h
    obtain ⟨v', hn, heq⟩ := exists_of_map_eq_ok h
    cases heq
    let n : Numeral := ⟨negative, ws, hne, hzero, fs, e, length_le_of_numeral hn⟩
    have hvalue := (numeral_eq_value n).symm.trans hn
    refine ⟨n, ?_, Except.ok.inj hvalue⟩
    rw [hs, ht, hu]
    simp [Numeral.chars, n]

/-! ## Words -/

/-- A word stands in front exactly when the text begins with it. -/
theorem after?_eq_some_iff {w s r : List Char} : after? w s = some r ↔ s = w ++ r := by
  induction w generalizing s with
  | nil => simp [after?]
  | cons c w ih =>
    cases s with
    | nil => simp [after?]
    | cons d s =>
      by_cases h : c = d
      · simp [after?, h, ih]
      · simp [after?, h, Ne.symm h]

/-- What begins like a number is no word. -/
theorem findSome?_words_digit (negative : Bool) (d : Fin 10) (rest : List Char) :
    (words.findSome? fun (w, v) =>
      (after? w ((if negative then ['-'] else []) ++ digitChar d :: rest)).map fun r => (v, r)) =
      none := by
  have hletters : ∀ d : Fin 10, 'n' ≠ digitChar d ∧ 't' ≠ digitChar d ∧ 'f' ≠ digitChar d ∧
      'N' ≠ digitChar d ∧ 'I' ≠ digitChar d ∧ '-' ≠ digitChar d := by decide
  obtain ⟨hn, ht, hf, hN, hI, hminus⟩ := hletters d
  cases negative <;> simp [words, after?, hn, ht, hf, hN, hI, hminus]

/-- **A word is read to its end.** -/
theorem scalar_word (w : Word) (rest : List Char) :
    scalar (w.chars ++ rest) = .ok (w.value, rest) := by
  have hwords : ∀ e ∈ words, scalar (e.1 ++ rest) = .ok (e.2, rest) := by
    simp [words, scalar, after?]
  exact hwords _ w.mem_words

/-- **A number is read to its end** where a word might stand. -/
theorem scalar_numeral (n : Numeral) {rest : List Char} (h : Bounded rest) :
    scalar (n.chars ++ rest) = .ok (n.value, rest) := by
  obtain ⟨d, ds, hds⟩ := List.exists_cons_of_ne_nil n.whole_ne_nil
  have hword := findSome?_words_digit n.negative d
    (digitChars ds ++ (fractionChars n.fraction ++ (exponentChars n.exponent ++ rest)))
  have hread := number_numeral n h
  simp only [Numeral.chars, hds, digitChars, List.map_cons, List.cons_append,
    List.append_assoc] at hword hread ⊢
  rw [scalar, hword]
  exact hread

/-- **What is read as a value without parts is a word or a number.** -/
theorem exists_spelling_of_scalar {s : List Char} {v : Json} {rest : List Char}
    (h : scalar s = .ok (v, rest)) :
    ∃ sp : Spelling, s = sp.text ++ rest ∧ sp.value = v ∧ sp.nesting = 0 := by
  unfold scalar at h
  split at h
  next x hx =>
    cases h
    obtain ⟨⟨w, v'⟩, hmem, hw⟩ := List.exists_of_findSome?_eq_some hx
    obtain ⟨r, hr, hv⟩ := Option.map_eq_some_iff.1 hw
    cases hv
    exact ⟨.word ⟨w, v, hmem⟩, after?_eq_some_iff.1 hr, rfl, rfl⟩
  next =>
    obtain ⟨n, hs, hv⟩ := exists_numeral_of_number h
    exact ⟨.number n, hs, hv, rfl⟩

end LintGate.Json
