import LintGate.Proofs.Json.Nesting

/-!
# Integers that are too long

The reader counts the digits of an integer as soon as it has taken them, before it looks at what
comes next. Whether the rest of the document is in order therefore plays no part: an integer that
is too long stops the reader also where a flaw would have stopped it one character later. What
stands in front of the integer does play a part, since the reader has to get there.

`Meets` says that it does. On the way to the integer there are brackets that are still open and,
inside each of them, items or members that are complete, with their commas. A document has such an
integer in its way (`IsOverlong`) exactly when the reader stops for the number of digits
(`read_eq_digits_iff`), provided that its brackets are not nested too deeply: these may stop the
reader before.
-/

namespace LintGate.Json

open LintGate.Text

/-! ## What stands in the way -/

/-- **An integer that is too long.** -/
structure LongInteger where
  /-- It begins with a minus. -/
  negative : Bool
  /-- Its digits. -/
  digits : List (Fin 10)
  /-- The first one is no zero. -/
  head?_ne_zero : digits.head? ≠ some 0
  /-- There are too many of them. -/
  longest_lt : longest < digits.length

/-- The integer as it is written. -/
def LongInteger.chars (o : LongInteger) : List Char :=
  (if o.negative then ['-'] else []) ++ digitChars o.digits

/-- **An integer ends here**: no digit follows and nothing that would make a fraction of it. -/
structure EndsInteger (rest : List Char) : Prop where
  /-- No digit follows, -/
  noDigit : NoDigit rest
  /-- no point with a digit behind it, -/
  noFraction : ∀ (d : Fin 10) (r : List Char), rest ≠ '.' :: digitChar d :: r
  /-- and no exponent. -/
  noExponent : ∀ (e : Exponent) (r : List Char), rest ≠ e.chars ++ r

/-- **The reader of a text meets an integer of `n` digits, which is too many**: here, or inside a
bracket behind what is complete there. -/
inductive Meets (n : Nat) : List Char → Prop
  /-- The integer stands here. -/
  | here (o : LongInteger) (rest : List Char) (length_eq : o.digits.length = n)
      (ends : EndsInteger rest) : Meets n (o.chars ++ rest)
  /-- It stands in an item of an array. -/
  | item (gap : Gap) (done : List ItemBefore) {t : List Char} (inner : Meets n t) :
      Meets n ('[' :: (gap.chars ++ (done.flatMap ItemBefore.chars ++ t)))
  /-- It stands in the value of an object's member. -/
  | member (gap : Gap) (done : List MemberBefore) (key : Key) {t : List Char}
      (inner : Meets n t) :
      Meets n ('\x7b' :: (gap.chars ++ (done.flatMap MemberBefore.chars ++ (key.chars ++ t))))

/-- **A document with an integer of `n` digits in the reader's way**, which is too many. -/
def IsOverlong (s : String) (n : Nat) : Prop :=
  ∃ (before : Gap) (t : List Char), s.toList = before.chars ++ t ∧ Meets n t

/-! ## How texts begin -/

theorem LongInteger.exists_digits (o : LongInteger) (rest : List Char) :
    ∃ (d : Fin 10) (r : List Char),
      o.chars ++ rest = (if o.negative then ['-'] else []) ++ digitChar d :: r ∧
        digitChars o.digits ++ rest = digitChar d :: r := by
  obtain ⟨d, ds, hds⟩ := List.exists_cons_of_length_pos (Nat.zero_lt_of_lt o.longest_lt)
  exact ⟨d, digitChars ds ++ rest, by simp [chars, hds, digitChars], by simp [hds, digitChars]⟩

theorem LongInteger.exists_head (o : LongInteger) (rest : List Char) :
    ∃ c r, o.chars ++ rest = c :: r ∧ Opens c ∧ Scalar c := by
  have hdigits : ∀ d : Fin 10, Scalar (digitChar d) := by decide
  obtain ⟨d, r, hchars, -⟩ := o.exists_digits rest
  rw [hchars]
  cases o.negative with
  | false => exact ⟨digitChar d, r, rfl, opens_digitChar d, hdigits d⟩
  | true => exact ⟨'-', digitChar d :: r, rfl, by decide, by decide⟩

/-- What meets such an integer begins like a value. -/
theorem Meets.exists_head {n : Nat} {s : List Char} (h : Meets n s) :
    ∃ c r, s = c :: r ∧ Opens c := by
  cases h with
  | here o rest _ _ =>
    obtain ⟨c, r, hs, hopens, -⟩ := o.exists_head rest
    exact ⟨c, r, hs, hopens⟩
  | item gap done inner => exact ⟨'[', _, rfl, by decide⟩
  | member gap done key inner => exact ⟨'\x7b', _, rfl, by decide⟩

theorem exists_head_items {s : List Char} (hs : ∃ c r, s = c :: r ∧ Opens c)
    (done : List ItemBefore) :
    ∃ c r, done.flatMap ItemBefore.chars ++ s = c :: r ∧ Opens c := by
  cases done with
  | nil => exact hs
  | cons i done =>
    obtain ⟨c, r, hc, hopens⟩ := i.value.exists_head
    exact ⟨c, _, by simp [ItemBefore.chars, hc]; rfl, hopens⟩

theorem exists_head_members (done : List MemberBefore) (key : Key) (s : List Char) :
    ∃ r, done.flatMap MemberBefore.chars ++ (key.chars ++ s) = '"' :: r := by
  cases done <;> exact ⟨_, rfl⟩

theorem solid_of_exists_head {s : List Char} (h : ∃ c r, s = c :: r ∧ Opens c) : Solid s := by
  obtain ⟨c, r, rfl, hopens⟩ := h
  exact solid_cons hopens.isFiller_eq_false

/-! ## The integer -/

/-- The integer stops the reader, whatever follows it. -/
theorem number_long (o : LongInteger) {rest : List Char} (h : EndsInteger rest) :
    number (o.chars ++ rest) = .error (.digits o.digits.length) := by
  obtain ⟨d, r, hchars, hdigits⟩ := o.exists_digits rest
  have hminus : minusPart (o.chars ++ rest) = (o.negative, digitChars o.digits ++ rest) := by
    rw [hchars, hdigits]
    exact minusPart_digitChar o.negative d r
  have hwhole : integerPart? (digitChars o.digits ++ rest) =
      some (o.digits.map Fin.val, rest) := by
    refine integerPart?_digitChars (fun hnil => ?_) (fun hzero => ?_) h.noDigit
    · exact Nat.not_lt_zero _ (hnil ▸ o.longest_lt)
    · exact absurd hzero o.head?_ne_zero
  have hfraction : fractionPart rest = ([], rest) := by
    obtain ⟨ds, t, hrest, hread⟩ := exists_digits_of_fractionPart rest
    cases ds with
    | nil =>
      obtain rfl : rest = t := hrest
      exact hread
    | cons d ds => exact absurd hrest (h.noFraction d _)
  have hexponent : exponentPart? rest = none := by
    obtain ⟨e, t, hrest, hread⟩ := exists_exponent rest
    cases e with
    | none => exact hread
    | some e => exact absurd hrest (h.noExponent e t)
  have hnumeral : numeral o.negative (o.digits.map Fin.val) [] none =
      .error (.digits o.digits.length) := by
    have hread : readNumeral (o.digits.map Fin.val) = .error o.digits.length := by
      simp [readNumeral, o.longest_lt]
    simp [numeral, hread]
  rw [number_eq_map (e := none) hminus hwhole hfraction hexponent, Option.map_none, hnumeral]
  rfl

theorem scalar_long (o : LongInteger) {rest : List Char} (h : EndsInteger rest) :
    scalar (o.chars ++ rest) = .error (.digits o.digits.length) := by
  obtain ⟨d, r, hchars, -⟩ := o.exists_digits rest
  have hword := findSome?_words_digit o.negative d r
  rw [← hchars] at hword
  rw [scalar, hword]
  exact number_long o h

/-- Digits are taken from the first one on. -/
theorem spanDigits_cons_digitChar (d : Fin 10) (r : List Char) :
    ∃ ds rest, spanDigits asciiDigit? (digitChar d :: r) = (d.val :: ds, rest) := by
  simp [spanDigits, asciiDigit?_digitChar]

theorem fractionPart_ne_nil (d : Fin 10) (r : List Char) :
    (fractionPart ('.' :: digitChar d :: r)).1 ≠ [] := by
  obtain ⟨ds, rest, hspan⟩ := spanDigits_cons_digitChar d r
  simp [fractionPart, hspan]

theorem exponentPart?_ne_none (e : Exponent) (r : List Char) :
    exponentPart? (e.chars ++ r) ≠ none := by
  obtain ⟨d, ds, hds⟩ := List.exists_cons_of_ne_nil e.digits_ne_nil
  obtain ⟨es, rest, hspan⟩ := spanDigits_cons_digitChar d (digitChars ds ++ r)
  have hsign := signPart_chars e.sign d (digitChars ds ++ r)
  have hchars : e.chars ++ r =
      e.letter :: (e.sign.chars ++ digitChar d :: (digitChars ds ++ r)) := by
    simp [Exponent.chars, hds, digitChars]
  rw [hchars, exponentPart?, if_pos e.letter_eq, hsign]
  simp [hspan]

/-- A number that stops the reader for its digits has neither fraction nor exponent. -/
theorem eq_of_numeral_eq_digits {negative : Bool} {whole fraction : List (Fin 10)}
    {e : Option Exponent} {n : Nat}
    (h : numeral negative (whole.map Fin.val) (fraction.map Fin.val) (e.map Exponent.parts) =
      .error (.digits n)) :
    fraction = [] ∧ e = none ∧ longest < whole.length ∧ whole.length = n := by
  cases fraction with
  | cons d ds => cases e <;> simp [numeral] at h
  | nil =>
    cases e with
    | some e => simp [numeral, Exponent.parts] at h
    | none =>
      have hread : readNumeral (whole.map Fin.val) = .error n := by
        unfold numeral at h
        cases hw : readNumeral (whole.map Fin.val) with
        | ok m => simp [hw] at h
        | error m =>
          simp only [List.map_nil, Option.map_none, hw, Except.error.injEq, Stop.digits.injEq] at h
          rw [h]
      by_cases hle : whole.length ≤ longest
      · simp [readNumeral, hle] at hread
      · refine ⟨rfl, rfl, Nat.lt_of_not_le hle, ?_⟩
        simpa [readNumeral, hle] using hread

/-- What stops the reader of a number for its digits is such an integer. -/
theorem exists_long_of_number {s : List Char} {n : Nat} (h : number s = .error (.digits n)) :
    ∃ (o : LongInteger) (rest : List Char),
      s = o.chars ++ rest ∧ o.digits.length = n ∧ EndsInteger rest := by
  obtain ⟨negative, t, hs, hminus⟩ := exists_minus s
  cases hw : integerPart? t with
  | none =>
    rw [number, hminus] at h
    simp only [hw] at h
    cases h
  | some x =>
    obtain ⟨whole, u⟩ := x
    obtain ⟨ws, hne, hzero, hend, rfl, ht⟩ := exists_digits_of_integerPart hw
    obtain ⟨fs, w, hu, hfraction⟩ := exists_digits_of_fractionPart u
    obtain ⟨e, r, rfl, hexponent⟩ := exists_exponent w
    rw [number_eq_map hminus hw hfraction hexponent] at h
    obtain ⟨rfl, rfl, hlong, hlength⟩ := eq_of_numeral_eq_digits (eq_error_of_map_eq_error h)
    -- a lone zero would be short enough
    have hne_zero : ws ≠ [0] := by
      rintro rfl
      exact absurd hlong (by decide)
    obtain rfl : u = r := hu
    refine ⟨⟨negative, ws, fun hhead => hne_zero (hzero hhead), hlong⟩, u, ?_, hlength,
      hend.resolve_left hne_zero, ?_, ?_⟩
    · rw [hs, ht]
      simp [LongInteger.chars]
    · rintro d t rfl
      exact fractionPart_ne_nil d t (congrArg Prod.fst hfraction)
    · rintro e t rfl
      exact exponentPart?_ne_none e t hexponent

/-- **What stops the reader of a value without parts for its digits** is such an integer. -/
theorem exists_long_of_scalar {s : List Char} {n : Nat} (h : scalar s = .error (.digits n)) :
    ∃ (o : LongInteger) (rest : List Char),
      s = o.chars ++ rest ∧ o.digits.length = n ∧ EndsInteger rest := by
  unfold scalar at h
  split at h
  · cases h
  · exact exists_long_of_number h

/-! ## The way there -/

variable {n depth room : Nat} {s t rest : List Char}

/-- **The reader stops** for the digits of an integer, or before that at a bracket. -/
def StopsAt {α : Type} (n : Nat) (x : Except Stop α) : Prop :=
  x = .error (.digits n) ∨ ∃ b, x = .error (.nesting b)

theorem StopsAt.map {α β : Type} {x : Except Stop α} (h : StopsAt n x) (f : α → β) :
    StopsAt n (x.map f) := by
  rcases h with rfl | ⟨b, rfl⟩
  · exact .inl rfl
  · exact .inr ⟨b, rfl⟩

/-- What stops the reader of a value stops it behind other items as well. -/
theorem stopsAt_items (hhead : ∃ c r, t = c :: r ∧ Opens c)
    (hvalue : ∀ depth room, 2 * t.length < depth → StopsAt n (value depth room t))
    (done : List ItemBefore) (depth room : Nat)
    (hdepth : 2 * (done.flatMap ItemBefore.chars ++ t).length + 1 < depth) :
    StopsAt n (items depth room (done.flatMap ItemBefore.chars ++ t)) := by
  obtain ⟨depth, rfl⟩ := Nat.exists_eq_succ_of_ne_zero (Nat.ne_zero_of_lt hdepth)
  induction done generalizing depth with
  | nil =>
    rcases hvalue depth room (by simpa using hdepth) with hv | ⟨b, hv⟩
    · exact .inl (items_of_error hv)
    · exact .inr ⟨b, items_of_error hv⟩
  | cons i done ih =>
    rw [List.flatMap_cons, List.append_assoc] at hdepth ⊢
    have hsolid := solid_of_exists_head (exists_head_items hhead done)
    have hcomma : 0 < i.chars.length := by
      simp only [ItemBefore.chars, List.length_append, List.length_cons]
      omega
    rw [List.length_append] at hdepth
    have hle : i.chars.length ≤ depth := by omega
    rcases items_itemBefore i hsolid hle with ⟨b, hb⟩ | hread
    · exact .inr ⟨b, hb⟩
    · obtain ⟨depth, rfl⟩ := Nat.exists_eq_succ_of_ne_zero (n := depth) (by omega)
      rw [hread]
      exact (ih depth (by omega)).map _

/-- What stops the reader of a value stops it behind a key and other members as well. -/
theorem stopsAt_members (ht : Solid t)
    (hvalue : ∀ depth room, 2 * t.length < depth → StopsAt n (value depth room t))
    (done : List MemberBefore) (key : Key) (depth room : Nat)
    (hdepth : 2 * (done.flatMap MemberBefore.chars ++ (key.chars ++ t)).length + 1 < depth) :
    StopsAt n (members depth room (done.flatMap MemberBefore.chars ++ (key.chars ++ t))) := by
  obtain ⟨depth, rfl⟩ := Nat.exists_eq_succ_of_ne_zero (Nat.ne_zero_of_lt hdepth)
  induction done generalizing depth with
  | nil =>
    obtain ⟨r, q, u, hk, hstring, hcolon, hu⟩ := string_key key t
    have hread := hvalue depth room
      (by simp only [List.flatMap_nil, List.nil_append, List.length_append] at hdepth; omega)
    rw [← hu ht] at hread
    rw [List.flatMap_nil, List.nil_append, hk]
    rcases hread with hv | ⟨b, hv⟩
    · exact .inl (members_of_error hstring hcolon hv)
    · exact .inr ⟨b, members_of_error hstring hcolon hv⟩
  | cons m done ih =>
    rw [List.flatMap_cons, List.append_assoc] at hdepth ⊢
    have hsolid : Solid (done.flatMap MemberBefore.chars ++ (key.chars ++ t)) := by
      obtain ⟨k, hhead⟩ := exists_head_members done key t
      rw [hhead]
      exact solid_cons (by decide)
    have hcomma : 0 < m.chars.length := by
      simp only [MemberBefore.chars, ItemBefore.chars, List.length_append, List.length_cons]
      omega
    rw [List.length_append] at hdepth
    have hle : m.chars.length ≤ depth := by omega
    rcases members_memberBefore m hsolid hle with ⟨b, hb⟩ | hread
    · exact .inr ⟨b, hb⟩
    · obtain ⟨depth, rfl⟩ := Nat.exists_eq_succ_of_ne_zero (n := depth) (by omega)
      rw [hread]
      exact (ih depth (by omega)).map _

/-- **The integer stops the reader**, unless a bracket on the way does. -/
theorem Meets.stopsAt (h : Meets n s) (depth room : Nat) (hdepth : 2 * s.length < depth) :
    StopsAt n (value depth room s) := by
  -- a bracket pays for the step into it and for the step to its first part
  induction h generalizing depth room with
  | here o rest length_eq ends =>
    obtain ⟨depth, rfl⟩ := Nat.exists_eq_succ_of_ne_zero (Nat.ne_zero_of_lt hdepth)
    obtain ⟨c, r, hchars, -, hscalar⟩ := o.exists_head rest
    refine .inl ?_
    rw [value_scalar (by simpa [hchars] using hscalar), scalar_long o ends, length_eq]
  | @item gap done t inner ih =>
    obtain ⟨depth, rfl⟩ := Nat.exists_eq_succ_of_ne_zero (Nat.ne_zero_of_lt hdepth)
    cases room with
    | zero => exact .inr ⟨.array, rfl⟩
    | succ room =>
      have hhead := exists_head_items inner.exists_head done
      have hskip := skip_gap gap (solid_of_exists_head hhead)
      have hread := stopsAt_items inner.exists_head ih done depth room
        (by simp only [List.length_append, List.length_cons] at hdepth ⊢; omega)
      obtain ⟨c, r, hc, hopens⟩ := hhead
      rw [hc] at hskip hread ⊢
      rw [value_array hskip hopens.ne_bracket]
      exact hread.map _
  | @member gap done key t inner ih =>
    obtain ⟨depth, rfl⟩ := Nat.exists_eq_succ_of_ne_zero (Nat.ne_zero_of_lt hdepth)
    cases room with
    | zero => exact .inr ⟨.object, rfl⟩
    | succ room =>
      obtain ⟨r, hhead⟩ := exists_head_members done key t
      have hread := stopsAt_members (solid_of_exists_head inner.exists_head) ih done key depth room
        (by simp only [List.length_append, List.length_cons] at hdepth ⊢; omega)
      rw [hhead] at hread ⊢
      have hskip := skip_gap gap (solid_cons (c := '"') (s := r) (by decide))
      rw [value_object hskip (by decide)]
      exact hread.map _

/-! ## What stops the reader -/

/-- At this depth, a value that stops the reader for the digits of an integer meets one. -/
def ValuesMeet (depth : Nat) : Prop :=
  ∀ {room n : Nat} {s : List Char}, value depth room s = .error (.digits n) → Meets n s

/-- At this depth, items that stop the reader so have such an integer behind complete ones. -/
def ItemsMeet (depth : Nat) : Prop :=
  ∀ {room n : Nat} {s : List Char}, items depth room s = .error (.digits n) →
    ∃ (done : List ItemBefore) (t : List Char),
      s = done.flatMap ItemBefore.chars ++ t ∧ Meets n t

/-- At this depth, members that stop the reader so have such an integer behind complete ones and a
key. -/
def MembersMeet (depth : Nat) : Prop :=
  ∀ {room n : Nat} {s : List Char}, members depth room s = .error (.digits n) →
    ∃ (done : List MemberBefore) (key : Key) (t : List Char),
      s = done.flatMap MemberBefore.chars ++ (key.chars ++ t) ∧ Meets n t

theorem valuesMeet_succ (hitems : ItemsMeet depth) (hmembers : MembersMeet depth) :
    ValuesMeet (depth + 1) := by
  intro room n s h
  cases valueStops_of_error h with
  | scalar fails =>
    obtain ⟨o, rest, rfl, hlength, hends⟩ := exists_long_of_scalar fails
    exact .here o rest hlength hends
  | string f place eq_flaw => cases eq_flaw
  | noArray r eq_nesting => cases eq_nesting
  | noObject r eq_nesting => cases eq_nesting
  | items gap fails =>
    obtain ⟨done, t, rfl, hmeets⟩ := hitems fails
    exact .item gap done hmeets
  | members gap fails =>
    obtain ⟨done, key, t, rfl, hmeets⟩ := hmembers fails
    exact .member gap done key hmeets

theorem itemsMeet_succ (hvalues : ValuesMeet depth) (hitems : ItemsMeet depth) :
    ItemsMeet (depth + 1) := by
  intro room n s h
  cases itemsStop_of_error h with
  | flaw place eq_flaw => cases eq_flaw
  | first fails => exact ⟨[], s, rfl, hvalues fails⟩
  | behind i fails =>
    obtain ⟨done, t, rfl, hmeets⟩ := hitems fails
    exact ⟨i :: done, t, by simp, hmeets⟩

theorem membersMeet_succ (hvalues : ValuesMeet depth) (hmembers : MembersMeet depth) :
    MembersMeet (depth + 1) := by
  intro room n s h
  cases membersStop_of_error h with
  | flaw f place eq_flaw => cases eq_flaw
  | first key fails => exact ⟨[], key, _, rfl, hvalues fails⟩
  | behind m fails =>
    obtain ⟨done, key, t, rfl, hmeets⟩ := hmembers fails
    exact ⟨m :: done, key, t, by simp, hmeets⟩

theorem all_meet (depth : Nat) : ValuesMeet depth ∧ ItemsMeet depth ∧ MembersMeet depth := by
  induction depth with
  | zero => exact ⟨fun h => (by cases h), fun h => (by cases h), fun h => (by cases h)⟩
  | succ depth ih =>
    obtain ⟨hvalues, hitems, hmembers⟩ := ih
    exact ⟨valuesMeet_succ hitems hmembers, itemsMeet_succ hvalues hitems,
      membersMeet_succ hvalues hmembers⟩

/-! ## Documents -/

/-- What stops the reader of a document for the digits of an integer is in its way. -/
theorem isOverlong_of_read {s : String} {n : Nat} (h : read s = .error (.digits n)) :
    IsOverlong s n := by
  have hdocument : document deepest s.toList = .error (.digits n) := by
    unfold read readWithin at h
    split at h <;> cases h
    assumption
  obtain ⟨before, hbefore⟩ := exists_gap s.toList
  exact ⟨before, _, hbefore, (all_meet _).1 (value_of_document_error hdocument (by simp))⟩

/-- Where the reader of the value stops, the reader of the document does. -/
theorem document_of_error (before : Gap) (hhead : ∃ c r, t = c :: r ∧ Opens c) {stop : Stop}
    (h : value (2 * (before.chars ++ t).length + 2) room t = .error stop) :
    document room (before.chars ++ t) = .error stop := by
  have hmark : ∀ u, before.chars ++ t ≠ '\ufeff' :: u := by
    obtain ⟨c, r, rfl, hopens⟩ := hhead
    exact ne_mark_of_opens hopens before r
  rw [document.eq_2 _ _ hmark, skip_gap before (solid_of_exists_head hhead), h]

/-- **The reader stops for the digits of an integer exactly when one is in its way that is too
long**, in a document whose brackets are not nested too deeply. -/
theorem read_eq_digits_iff {s : String} {n : Nat} (hdepth : bracketDepth s ≤ deepest) :
    read s = .error (.digits n) ↔ IsOverlong s n := by
  refine ⟨isOverlong_of_read, fun ⟨before, t, hs, hmeets⟩ => ?_⟩
  have hlength : 2 * t.length < 2 * (before.chars ++ t).length + 2 := by
    rw [List.length_append]
    omega
  rcases hmeets.stopsAt _ deepest hlength with hv | ⟨b, hv⟩
  · rw [read, readWithin, hs, document_of_error before hmeets.exists_head hv]
  · have hnesting : read s = .error (.nesting b) := by
      rw [read, readWithin, hs, document_of_error before hmeets.exists_head hv]
    exact absurd (deepest_lt_of_nesting hnesting) (Nat.not_lt.2 hdepth)

end LintGate.Json
