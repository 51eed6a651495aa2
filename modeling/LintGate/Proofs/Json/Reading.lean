import LintGate.Proofs.Json.Lexemes

/-!
# Reading spellings

The reader gives a document the value of its spelling, and gives a value to nothing but spellings:
`read_eq_ok_iff`. A spelling whose brackets are nested more deeply than the reader allows is
refused for that reason and no other (`exists_nesting_of_lt`).

Both directions carry the two numbers that the productions pass on. A value is read when the depth
exceeds the length of its text, which every production keeps: it gives one up and leaves at least
one character behind. The room is what the spelling's nesting is compared with.
-/

namespace LintGate.Json

open LintGate.Text

/-! ## How texts begin -/

/-- A character that a value can begin with. -/
structure Opens (c : Char) : Prop where
  /-- It is no blank, -/
  isFiller_eq_false : isFiller c = false
  /-- closes nothing -/
  ne_bracket : c ≠ ']'
  /-- of either kind, -/
  ne_brace : c ≠ '\x7d'
  /-- and is no byte order mark. -/
  ne_mark : c ≠ '\ufeff'

instance (c : Char) : Decidable (Opens c) :=
  decidable_of_iff (isFiller c = false ∧ c ≠ ']' ∧ c ≠ '\x7d' ∧ c ≠ '\ufeff')
    ⟨fun ⟨hfiller, hbracket, hbrace, hmark⟩ => ⟨hfiller, hbracket, hbrace, hmark⟩,
      fun ⟨hfiller, hbracket, hbrace, hmark⟩ => ⟨hfiller, hbracket, hbrace, hmark⟩⟩

theorem opens_digitChar : ∀ d : Fin 10, Opens (digitChar d) := by decide

/-- A character that neither a string nor a bracket begins with. -/
def Scalar (c : Char) : Prop := c ≠ '"' ∧ c ≠ '\x7b' ∧ c ≠ '['

instance (c : Char) : Decidable (Scalar c) := inferInstanceAs (Decidable (_ ∧ _))

/-- A text that begins with no such character begins with a quote or opens a bracket. -/
theorem exists_of_not_scalar {s : List Char} (h : ¬∀ c ∈ s.head?, Scalar c) :
    ∃ r, s = '"' :: r ∨ s = '\x7b' :: r ∨ s = '[' :: r := by
  cases s with
  | nil => simp at h
  | cons c r =>
    refine ⟨r, ?_⟩
    simp only [List.head?_cons, Option.mem_some_iff, forall_eq', Scalar] at h
    simpa [Decidable.or_iff_not_imp_left] using h

theorem Word.exists_head (w : Word) : ∃ c r, w.chars = c :: r ∧ Opens c ∧ Scalar c := by
  have hwords : ∀ e ∈ words, ∃ c r, e.1 = c :: r ∧ Opens c ∧ Scalar c := by
    simp +decide [words]
  exact hwords _ w.mem_words

theorem Numeral.exists_head (n : Numeral) : ∃ c r, n.chars = c :: r ∧ Opens c ∧ Scalar c := by
  have hdigits : ∀ d : Fin 10, Scalar (digitChar d) := by decide
  obtain ⟨d, ds, hds⟩ := List.exists_cons_of_ne_nil n.whole_ne_nil
  cases hn : n.negative with
  | false =>
    exact ⟨digitChar d, _, by simp [Numeral.chars, hn, hds, digitChars]; rfl, opens_digitChar d,
      hdigits d⟩
  | true => exact ⟨'-', _, by simp [Numeral.chars, hn]; rfl, by decide, by decide⟩

/-- **A value begins with a character that tells it from blanks and closing brackets.** -/
theorem Spelling.exists_head (sp : Spelling) : ∃ c r, sp.text = c :: r ∧ Opens c := by
  cases sp with
  | word w =>
    obtain ⟨c, r, h, hc, -⟩ := w.exists_head
    exact ⟨c, r, h, hc⟩
  | number n =>
    obtain ⟨c, r, h, hc, -⟩ := n.exists_head
    exact ⟨c, r, h, hc⟩
  | string gs => exact ⟨'"', _, rfl, by decide⟩
  | emptyArray gap => exact ⟨'[', _, rfl, by decide⟩
  | array gap items => exact ⟨'[', _, rfl, by decide⟩
  | emptyObject gap => exact ⟨'\x7b', _, rfl, by decide⟩
  | object gap members => exact ⟨'\x7b', _, rfl, by decide⟩

theorem Spelling.solid (sp : Spelling) (rest : List Char) : Solid (sp.text ++ rest) := by
  obtain ⟨c, r, h, hc⟩ := sp.exists_head
  rw [h]
  exact solid_cons hc.isFiller_eq_false

theorem Items.exists_head (is : Items) : ∃ c r, is.text = c :: r ∧ Opens c := by
  cases is with
  | last v gap =>
    obtain ⟨c, r, h, hc⟩ := v.exists_head
    exact ⟨c, _, by rw [Items.text, h]; rfl, hc⟩
  | more v before behind rest =>
    obtain ⟨c, r, h, hc⟩ := v.exists_head
    exact ⟨c, _, by rw [Items.text, h]; rfl, hc⟩

theorem Items.solid (is : Items) (rest : List Char) : Solid (is.text ++ rest) := by
  obtain ⟨c, r, h, hc⟩ := is.exists_head
  rw [h]
  exact solid_cons hc.isFiller_eq_false

theorem Members.exists_head (ms : Members) : ∃ r, ms.text = '"' :: r := by
  cases ms <;> exact ⟨_, rfl⟩

theorem Members.solid (ms : Members) (rest : List Char) : Solid (ms.text ++ rest) := by
  obtain ⟨r, h⟩ := ms.exists_head
  rw [h]
  exact solid_cons (by decide)

/-! ## One step of the reader -/

variable {depth room : Nat} {s rest : List Char}

theorem value_quote (depth room : Nat) (r : List Char) :
    value (depth + 1) room ('"' :: r) =
      (string ('"' :: r) r).map fun (t, rest) => (.str t, rest) := rfl

theorem value_bracket (depth room : Nat) (r : List Char) :
    value (depth + 1) (room + 1) ('[' :: r) =
      match skip r with
      | ']' :: rest => .ok (.arr [], rest)
      | s => (items depth room s).map fun (vs, rest) => (.arr vs, rest) := rfl

theorem value_brace (depth room : Nat) (r : List Char) :
    value (depth + 1) (room + 1) ('\x7b' :: r) =
      match skip r with
      | '\x7d' :: rest => .ok (.obj [], rest)
      | s => (members depth room s).map fun (ms, rest) => (.ofMembers ms, rest) := rfl

theorem value_quoted (depth room : Nat) (gs : List Glyph) (rest : List Char) :
    value (depth + 1) room (quoted gs ++ rest) = .ok (.str (spelled gs), rest) := by
  have hread : string (quoted gs ++ rest) (gs.flatMap Glyph.chars ++ '"' :: rest) =
      .ok (spelled gs, rest) := string_eq_ok_iff.2 ⟨gs, rfl, rfl⟩
  simp only [quoted, List.cons_append, List.append_assoc, List.nil_append] at hread ⊢
  rw [value_quote, hread]
  rfl

theorem value_scalar (h : ∀ c ∈ s.head?, Scalar c) (depth room : Nat) :
    value (depth + 1) room s = scalar s := by
  -- the text opens nothing, whether or not there is room
  refine value.eq_7 room s depth ?_ ?_ ?_ ?_ ?_
  · rintro r rfl
    exact (h _ rfl).1 rfl
  · rintro r rfl -
    exact (h _ rfl).2.1 rfl
  · rintro r - rfl -
    exact (h _ rfl).2.1 rfl
  · rintro r rfl -
    exact (h _ rfl).2.2 rfl
  · rintro r - rfl -
    exact (h _ rfl).2.2 rfl

theorem value_array {r : List Char} {c : Char} {t : List Char} (hr : skip r = c :: t)
    (hc : c ≠ ']') :
    value (depth + 1) (room + 1) ('[' :: r) =
      (items depth room (c :: t)).map fun (vs, rest) => (.arr vs, rest) := by
  rw [value_bracket, hr]
  split
  next h => exact absurd (List.cons.inj h).1 hc
  next => rfl

theorem value_object {r : List Char} {c : Char} {t : List Char} (hr : skip r = c :: t)
    (hc : c ≠ '\x7d') :
    value (depth + 1) (room + 1) ('\x7b' :: r) =
      (members depth room (c :: t)).map fun (ms, rest) => (.ofMembers ms, rest) := by
  rw [value_brace, hr]
  split
  next h => exact absurd (List.cons.inj h).1 hc
  next => rfl

/-- What is read as an array has items, or has none. -/
theorem items_of_value_array {r : List Char} {v : Json}
    (h : value (depth + 1) room ('[' :: r) = .ok (v, rest)) :
    ∃ inner, room = inner + 1 ∧ (skip r = ']' :: rest ∧ v = .arr [] ∨
      ∃ vs, items depth inner (skip r) = .ok (vs, rest) ∧ v = .arr vs) := by
  cases room with
  | zero => cases h
  | succ inner =>
    refine ⟨inner, rfl, ?_⟩
    rw [value_bracket] at h
    split at h
    next t ht =>
      cases h
      exact .inl ⟨ht, rfl⟩
    next =>
      obtain ⟨⟨vs, rest'⟩, hitems, heq⟩ := exists_of_map_eq_ok h
      cases heq
      exact .inr ⟨vs, hitems, rfl⟩

/-- What is read as an object has members, or has none. -/
theorem members_of_value_object {r : List Char} {v : Json}
    (h : value (depth + 1) room ('\x7b' :: r) = .ok (v, rest)) :
    ∃ inner, room = inner + 1 ∧ (skip r = '\x7d' :: rest ∧ v = .obj [] ∨
      ∃ ms, members depth inner (skip r) = .ok (ms, rest) ∧ v = .ofMembers ms) := by
  cases room with
  | zero => cases h
  | succ inner =>
    refine ⟨inner, rfl, ?_⟩
    rw [value_brace] at h
    split at h
    next t ht =>
      cases h
      exact .inl ⟨ht, rfl⟩
    next =>
      obtain ⟨⟨ms, rest'⟩, hmembers, heq⟩ := exists_of_map_eq_ok h
      cases heq
      exact .inr ⟨ms, hmembers, rfl⟩

/-- What stands behind a value and its blanks: the closing bracket, a comma, or neither. -/
theorem close_or_comma (close : Char) (r : List Char) :
    (∃ t, skip r = close :: t) ∨ (∃ t, skip r = ',' :: t) ∨
      (∀ t, skip r ≠ close :: t) ∧ ∀ t, skip r ≠ ',' :: t := by
  by_cases hclose : ∃ t, skip r = close :: t
  · exact .inl hclose
  · by_cases hcomma : ∃ t, skip r = ',' :: t
    · exact .inr (.inl hcomma)
    · exact .inr (.inr ⟨fun t ht => hclose ⟨t, ht⟩, fun t ht => hcomma ⟨t, ht⟩⟩)

section Items

variable {v : Json} {r t : List Char}

theorem items_of_error {stop : Stop} (h : value depth room s = .error stop) :
    items (depth + 1) room s = .error stop := by
  show Except.bind (value depth room s) _ = _
  rw [h]
  rfl

theorem items_of_close (h : value depth room s = .ok (v, r)) (hr : skip r = ']' :: rest) :
    items (depth + 1) room s = .ok ([v], rest) := by
  show Except.bind (value depth room s) _ = _
  rw [h]
  simp only [Except.bind, hr]
  rfl

theorem items_of_comma (h : value depth room s = .ok (v, r)) (hr : skip r = ',' :: t) :
    items (depth + 1) room s =
      (items depth room (skip t)).map fun (vs, rest) => (v :: vs, rest) := by
  show Except.bind (value depth room s) _ = _
  rw [h]
  simp only [Except.bind, hr]
  cases items depth room (skip t) <;> rfl

theorem items_of_neither (h : value depth room s = .ok (v, r))
    (hclose : ∀ t, skip r ≠ ']' :: t) (hcomma : ∀ t, skip r ≠ ',' :: t) :
    items (depth + 1) room s = .error (.flaw .comma (skip r)) := by
  show Except.bind (value depth room s) _ = _
  rw [h]
  simp only [Except.bind]
  rfl

end Items

section Members

variable {k : String} {v : Json} {q r t u : List Char}

/-- Behind a key, its colon and a value stands the closing bracket. -/
theorem members_of_close (hk : string ('"' :: s) s = .ok (k, q)) (hq : skip q = ':' :: t)
    (h : value depth room (skip t) = .ok (v, r)) (hr : skip r = '\x7d' :: rest) :
    members (depth + 1) room ('"' :: s) = .ok ([(k, v)], rest) := by
  show Except.bind (string ('"' :: s) s) _ = _
  rw [hk]
  simp only [bind, Except.bind, hq, h, hr]
  rfl

theorem members_of_comma (hk : string ('"' :: s) s = .ok (k, q)) (hq : skip q = ':' :: t)
    (h : value depth room (skip t) = .ok (v, r)) (hr : skip r = ',' :: u) :
    members (depth + 1) room ('"' :: s) =
      (members depth room (skip u)).map fun (ms, rest) => ((k, v) :: ms, rest) := by
  show Except.bind (string ('"' :: s) s) _ = _
  rw [hk]
  simp only [bind, Except.bind, hq, h, hr]
  cases members depth room (skip u) <;> rfl

theorem members_of_neither (hk : string ('"' :: s) s = .ok (k, q)) (hq : skip q = ':' :: t)
    (h : value depth room (skip t) = .ok (v, r)) (hclose : ∀ t, skip r ≠ '\x7d' :: t)
    (hcomma : ∀ t, skip r ≠ ',' :: t) :
    members (depth + 1) room ('"' :: s) = .error (.flaw .comma (skip r)) := by
  show Except.bind (string ('"' :: s) s) _ = _
  rw [hk]
  simp only [bind, Except.bind, hq, h]
  rfl

theorem members_of_error {stop : Stop} (hk : string ('"' :: s) s = .ok (k, q))
    (hq : skip q = ':' :: t) (h : value depth room (skip t) = .error stop) :
    members (depth + 1) room ('"' :: s) = .error stop := by
  show Except.bind (string ('"' :: s) s) _ = _
  rw [hk]
  simp only [bind, Except.bind, hq, h]

/-- Without a key, or without the colon behind it, the reader stops at a flaw. -/
theorem members_key (depth room : Nat) (s : List Char) :
    (∃ r k q t, s = '"' :: r ∧ string ('"' :: r) r = .ok (k, q) ∧ skip q = ':' :: t) ∨
      ∃ f place, members (depth + 1) room s = .error (.flaw f place) := by
  by_cases hquote : ∃ r, s = '"' :: r
  · obtain ⟨r, rfl⟩ := hquote
    cases hk : string ('"' :: r) r with
    | error stop =>
      obtain ⟨f, place, rfl⟩ := exists_flaw_of_string hk
      exact .inr ⟨f, place, by rw [members.eq_2, hk]; rfl⟩
    | ok x =>
      obtain ⟨k, q⟩ := x
      by_cases hcolon : ∃ t, skip q = ':' :: t
      · obtain ⟨t, hq⟩ := hcolon
        exact .inl ⟨r, k, q, t, rfl, hk, hq⟩
      · refine .inr ⟨.colon, skip q, ?_⟩
        rw [members.eq_2, hk]
        have hno : ∀ t, skip q ≠ ':' :: t := fun t ht => hcolon ⟨t, ht⟩
        simp only [bind, Except.bind]
        rfl
  · have hno : ∀ r, s ≠ '"' :: r := fun r hr => hquote ⟨r, hr⟩
    exact .inr ⟨.key, s, members.eq_3 room s depth hno⟩

end Members

/-! ## Spellings are read -/

theorem bounded_gap (gap : Gap) {s : List Char} (h : Bounded s) : Bounded (gap.chars ++ s) := by
  obtain ⟨chars, hchars⟩ := gap
  cases chars with
  | nil => exact h
  | cons c r =>
    intro d hd
    obtain rfl : c = d := by simpa using hd
    exact .inl (hchars c List.mem_cons_self)

theorem bounded_cons {c : Char} (h : c = ',' ∨ c = ']' ∨ c = '\x7d') (s : List Char) :
    Bounded (c :: s) := by
  intro d hd
  obtain rfl : c = d := by simpa using hd
  exact .inr h

/-- A key and its colon are read. -/
theorem string_key (k : Key) (s : List Char) :
    ∃ r q t, k.chars ++ s = '"' :: r ∧ string ('"' :: r) r = .ok (k.name, q) ∧
      skip q = ':' :: t ∧ (Solid s → skip t = s) := by
  refine ⟨_, k.before.chars ++ ':' :: (k.behind.chars ++ s), k.behind.chars ++ s, rfl,
    string_eq_ok_iff.2 ⟨k.glyphs, ?_, rfl⟩, ?_, ?_⟩
  · simp
  · exact skip_gap k.before (solid_cons (by decide))
  · exact skip_gap k.behind

mutual

/-- **The first bracket that finds no room**, if there is one. -/
def Spelling.tooDeep? : Spelling → Nat → Option Bracket
  | .emptyArray _, 0 => some .array
  | .array _ _, 0 => some .array
  | .array _ items, room + 1 => items.tooDeep? room
  | .emptyObject _, 0 => some .object
  | .object _ _, 0 => some .object
  | .object _ members, room + 1 => members.tooDeep? room
  | .emptyArray _, _ + 1 => none
  | .emptyObject _, _ + 1 => none
  | .word _, _ => none
  | .number _, _ => none
  | .string _, _ => none

/-- The first bracket of some items that finds no room. -/
def Items.tooDeep? : Items → Nat → Option Bracket
  | .last v _, room => v.tooDeep? room
  | .more v _ _ rest, room => (v.tooDeep? room).or (rest.tooDeep? room)

/-- The first bracket of some members that finds no room. -/
def Members.tooDeep? : Members → Nat → Option Bracket
  | .last _ v _, room => v.tooDeep? room
  | .more _ v _ _ rest, room => (v.tooDeep? room).or (rest.tooDeep? room)

end

mutual

theorem Spelling.tooDeep?_eq_none_iff (sp : Spelling) (room : Nat) :
    sp.tooDeep? room = none ↔ sp.nesting ≤ room := by
  cases sp with
  | word w => simp [Spelling.tooDeep?, Spelling.nesting]
  | number n => simp [Spelling.tooDeep?, Spelling.nesting]
  | string gs => simp [Spelling.tooDeep?, Spelling.nesting]
  | emptyArray gap => cases room <;> simp [Spelling.tooDeep?, Spelling.nesting]
  | array gap is =>
    cases room with
    | zero => simp [Spelling.tooDeep?, Spelling.nesting]
    | succ room => simp [Spelling.tooDeep?, Spelling.nesting, is.tooDeep?_eq_none_iff room]
  | emptyObject gap => cases room <;> simp [Spelling.tooDeep?, Spelling.nesting]
  | object gap ms =>
    cases room with
    | zero => simp [Spelling.tooDeep?, Spelling.nesting]
    | succ room => simp [Spelling.tooDeep?, Spelling.nesting, ms.tooDeep?_eq_none_iff room]

theorem Items.tooDeep?_eq_none_iff (is : Items) (room : Nat) :
    is.tooDeep? room = none ↔ is.nesting ≤ room := by
  cases is with
  | last v gap => exact v.tooDeep?_eq_none_iff room
  | more v before behind is =>
    rw [Items.tooDeep?, Items.nesting, Option.or_eq_none_iff, v.tooDeep?_eq_none_iff,
      is.tooDeep?_eq_none_iff, Nat.max_le]

theorem Members.tooDeep?_eq_none_iff (ms : Members) (room : Nat) :
    ms.tooDeep? room = none ↔ ms.nesting ≤ room := by
  cases ms with
  | last k v gap => exact v.tooDeep?_eq_none_iff room
  | more k v before behind ms =>
    rw [Members.tooDeep?, Members.nesting, Option.or_eq_none_iff, v.tooDeep?_eq_none_iff,
      ms.tooDeep?_eq_none_iff, Nat.max_le]

end

/-- The result where a bracket may be nested too deeply. -/
def unlessTooDeep {α : Type} (b : Option Bracket) (a : α) : Except Stop α :=
  match b with
  | some b => .error (.nesting b)
  | none => .ok a

theorem map_unlessTooDeep {α β : Type} (b : Option Bracket) (a : α) (f : α → β) :
    (unlessTooDeep b a).map f = unlessTooDeep b (f a) := by
  cases b <;> rfl

mutual

/-- **A spelling is read as its value**, unless a bracket of it finds no room. -/
theorem Spelling.value_text (sp : Spelling) (depth room : Nat) {rest : List Char}
    (hdepth : sp.text.length < depth) (hrest : Bounded rest) :
    Json.value depth room (sp.text ++ rest) =
      unlessTooDeep (sp.tooDeep? room) (sp.value, rest) := by
  -- the first character pays for this step, and the parts are shorter by it
  obtain ⟨depth, rfl⟩ := Nat.exists_eq_succ_of_ne_zero (Nat.ne_zero_of_lt hdepth)
  cases sp with
  | word w =>
    obtain ⟨c, r, hc, -, hscalar⟩ := w.exists_head
    rw [Spelling.text, value_scalar (by simpa [hc] using hscalar), scalar_word]
    rfl
  | number n =>
    obtain ⟨c, r, hc, -, hscalar⟩ := n.exists_head
    rw [Spelling.text, value_scalar (by simpa [hc] using hscalar), scalar_numeral n hrest]
    rfl
  | string gs => exact value_quoted depth room gs rest
  | emptyArray gap =>
    have hskip := skip_gap gap (solid_cons (c := ']') (s := rest) (by decide))
    simp only [Spelling.text, List.cons_append, List.append_assoc, List.nil_append]
    cases room with
    | zero => rfl
    | succ room =>
      rw [value_bracket, hskip]
      rfl
  | array gap is =>
    simp only [Spelling.text, List.cons_append, List.append_assoc]
    cases room with
    | zero => rfl
    | succ room =>
      obtain ⟨c, t, hc, hopens⟩ := is.exists_head
      have hskip := skip_gap gap (is.solid rest)
      have hread := is.items_text depth room rest
        (by simp [Spelling.text] at hdepth; omega)
      rw [hc, List.cons_append] at hread hskip
      rw [hc, List.cons_append, value_array hskip hopens.ne_bracket, hread, map_unlessTooDeep]
      rfl
  | emptyObject gap =>
    have hskip := skip_gap gap (solid_cons (c := '\x7d') (s := rest) (by decide))
    simp only [Spelling.text, List.cons_append, List.append_assoc, List.nil_append]
    cases room with
    | zero => rfl
    | succ room =>
      rw [value_brace, hskip]
      rfl
  | object gap ms =>
    simp only [Spelling.text, List.cons_append, List.append_assoc]
    cases room with
    | zero => rfl
    | succ room =>
      obtain ⟨t, hc⟩ := ms.exists_head
      have hskip := skip_gap gap (ms.solid rest)
      have hread := ms.members_text depth room rest
        (by simp [Spelling.text] at hdepth; omega)
      rw [hc, List.cons_append] at hread hskip
      rw [hc, List.cons_append, value_object hskip (by decide), hread, map_unlessTooDeep]
      rfl

theorem Items.items_text (is : Items) (depth room : Nat) (rest : List Char)
    (hdepth : is.text.length < depth) :
    items depth room (is.text ++ rest) = unlessTooDeep (is.tooDeep? room) (is.values, rest) := by
  obtain ⟨depth, rfl⟩ := Nat.exists_eq_succ_of_ne_zero (Nat.ne_zero_of_lt hdepth)
  cases is with
  | last v gap =>
    have hv := v.value_text depth room (by simp [Items.text] at hdepth; omega)
      (bounded_gap gap (bounded_cons (c := ']') (by simp) rest))
    have hskip := skip_gap gap (solid_cons (c := ']') (s := rest) (by decide))
    simp only [Items.text, List.append_assoc, List.cons_append, List.nil_append, Items.tooDeep?]
    cases hb : v.tooDeep? room with
    | some b =>
      rw [hb] at hv
      exact items_of_error hv
    | none =>
      rw [hb] at hv
      exact items_of_close hv hskip
  | more v before behind is =>
    have hv := v.value_text depth room (by simp [Items.text] at hdepth; omega)
      (bounded_gap before (bounded_cons (c := ',') (by simp) (behind.chars ++ (is.text ++ rest))))
    have hskip := skip_gap before
      (solid_cons (c := ',') (s := behind.chars ++ (is.text ++ rest)) (by decide))
    have his := is.items_text depth room rest (by simp [Items.text] at hdepth; omega)
    simp only [Items.text, List.append_assoc, List.cons_append, Items.tooDeep?]
    cases hb : v.tooDeep? room with
    | some b =>
      rw [hb] at hv
      exact items_of_error hv
    | none =>
      rw [hb] at hv
      rw [items_of_comma hv hskip, skip_gap behind (is.solid rest), his, map_unlessTooDeep]
      rfl

theorem Members.members_text (ms : Members) (depth room : Nat) (rest : List Char)
    (hdepth : ms.text.length < depth) :
    members depth room (ms.text ++ rest) =
      unlessTooDeep (ms.tooDeep? room) (ms.values, rest) := by
  obtain ⟨depth, rfl⟩ := Nat.exists_eq_succ_of_ne_zero (Nat.ne_zero_of_lt hdepth)
  cases ms with
  | last k v gap =>
    obtain ⟨r, q, t, hk, hstring, hcolon, ht⟩ :=
      string_key k (v.text ++ (gap.chars ++ '\x7d' :: rest))
    have hv := v.value_text depth room (by simp [Members.text] at hdepth; omega)
      (bounded_gap gap (bounded_cons (c := '\x7d') (by simp) rest))
    have hskip := skip_gap gap (solid_cons (c := '\x7d') (s := rest) (by decide))
    -- the value is read behind the blanks that follow the colon
    rw [← ht (v.solid _)] at hv
    simp only [Members.text, List.append_assoc, List.cons_append, List.nil_append, Members.tooDeep?]
    rw [hk]
    cases hb : v.tooDeep? room with
    | some b =>
      rw [hb] at hv
      exact members_of_error hstring hcolon hv
    | none =>
      rw [hb] at hv
      exact members_of_close hstring hcolon hv hskip
  | more k v before behind ms =>
    obtain ⟨r, q, t, hk, hstring, hcolon, ht⟩ :=
      string_key k (v.text ++ (before.chars ++ ',' :: (behind.chars ++ (ms.text ++ rest))))
    have hv := v.value_text depth room (by simp [Members.text] at hdepth; omega)
      (bounded_gap before (bounded_cons (c := ',') (by simp) (behind.chars ++ (ms.text ++ rest))))
    have hskip := skip_gap before
      (solid_cons (c := ',') (s := behind.chars ++ (ms.text ++ rest)) (by decide))
    have hms := ms.members_text depth room rest (by simp [Members.text] at hdepth; omega)
    rw [← ht (v.solid _)] at hv
    simp only [Members.text, List.append_assoc, List.cons_append, Members.tooDeep?]
    rw [hk]
    cases hb : v.tooDeep? room with
    | some b =>
      rw [hb] at hv
      exact members_of_error hstring hcolon hv
    | none =>
      rw [hb] at hv
      rw [members_of_comma hstring hcolon hv hskip, skip_gap behind (ms.solid rest), hms,
        map_unlessTooDeep]
      rfl

end

/-! ## What is read is a spelling -/

/-- At this depth, whatever is read as a value is a spelling of it. -/
def ValuesSpelled (depth : Nat) : Prop :=
  ∀ {room : Nat} {s : List Char} {v : Json} {rest : List Char},
    value depth room s = .ok (v, rest) →
      ∃ sp : Spelling, s = sp.text ++ rest ∧ sp.value = v ∧ sp.nesting ≤ room

/-- At this depth, whatever is read as items is a spelling of them. -/
def ItemsSpelled (depth : Nat) : Prop :=
  ∀ {room : Nat} {s : List Char} {vs : List Json} {rest : List Char},
    items depth room s = .ok (vs, rest) →
      ∃ is : Items, s = is.text ++ rest ∧ is.values = vs ∧ is.nesting ≤ room

/-- At this depth, whatever is read as members is a spelling of them. -/
def MembersSpelled (depth : Nat) : Prop :=
  ∀ {room : Nat} {s : List Char} {ms : List (String × Json)} {rest : List Char},
    members depth room s = .ok (ms, rest) →
      ∃ sp : Members, s = sp.text ++ rest ∧ sp.values = ms ∧ sp.nesting ≤ room

theorem valuesSpelled_succ (hitems : ItemsSpelled depth) (hmembers : MembersSpelled depth) :
    ValuesSpelled (depth + 1) := by
  intro room s v rest h
  by_cases hscalar : ∀ c ∈ s.head?, Scalar c
  · rw [value_scalar hscalar] at h
    obtain ⟨sp, hs, hv, hnesting⟩ := exists_spelling_of_scalar h
    exact ⟨sp, hs, hv, hnesting ▸ Nat.zero_le room⟩
  obtain ⟨r, rfl | rfl | rfl⟩ := exists_of_not_scalar hscalar
  · rw [value_quote] at h
    obtain ⟨⟨t, rest'⟩, hstring, heq⟩ := exists_of_map_eq_ok h
    cases heq
    obtain ⟨gs, hr, rfl⟩ := string_eq_ok_iff.1 hstring
    exact ⟨.string gs, by rw [hr]; simp [Spelling.text, quoted], rfl, Nat.zero_le room⟩
  · obtain ⟨inner, rfl, ⟨hr, rfl⟩ | ⟨ms, hms, rfl⟩⟩ := members_of_value_object h
    · obtain ⟨gap, hgap⟩ := exists_gap r
      exact ⟨.emptyObject gap, by rw [hgap, hr]; simp [Spelling.text], rfl,
        Nat.le_add_left 1 inner⟩
    · obtain ⟨gap, hgap⟩ := exists_gap r
      obtain ⟨sp, hr, rfl, hroom⟩ := hmembers hms
      exact ⟨.object gap sp, by rw [hgap, hr]; simp [Spelling.text], rfl,
        Nat.succ_le_succ hroom⟩
  · obtain ⟨inner, rfl, ⟨hr, rfl⟩ | ⟨vs, hvs, rfl⟩⟩ := items_of_value_array h
    · obtain ⟨gap, hgap⟩ := exists_gap r
      exact ⟨.emptyArray gap, by rw [hgap, hr]; simp [Spelling.text], rfl,
        Nat.le_add_left 1 inner⟩
    · obtain ⟨gap, hgap⟩ := exists_gap r
      obtain ⟨sp, hr, rfl, hroom⟩ := hitems hvs
      exact ⟨.array gap sp, by rw [hgap, hr]; simp [Spelling.text], rfl,
        Nat.succ_le_succ hroom⟩

theorem itemsSpelled_succ (hvalues : ValuesSpelled depth) (hitems : ItemsSpelled depth) :
    ItemsSpelled (depth + 1) := by
  intro room s vs rest h
  cases hv : value depth room s with
  | error stop =>
    rw [items_of_error hv] at h
    cases h
  | ok x =>
    obtain ⟨v, r⟩ := x
    obtain ⟨sp, rfl, rfl, hroom⟩ := hvalues hv
    obtain ⟨gap, hgap⟩ := exists_gap r
    rcases close_or_comma ']' r with ⟨t, hr⟩ | ⟨t, hr⟩ | ⟨hclose, hcomma⟩
    · rw [items_of_close hv hr] at h
      cases h
      refine ⟨.last sp gap, ?_, rfl, hroom⟩
      rw [hgap, hr]
      simp [Items.text]
    · rw [items_of_comma hv hr] at h
      obtain ⟨⟨ws, rest'⟩, hi, heq⟩ := exists_of_map_eq_ok h
      cases heq
      obtain ⟨is, ht, rfl, hroom'⟩ := hitems hi
      obtain ⟨behind, hbehind⟩ := exists_gap t
      refine ⟨.more sp gap behind is, ?_, rfl, Nat.max_le.2 ⟨hroom, hroom'⟩⟩
      rw [hgap, hr, hbehind, ht]
      simp [Items.text]
    · rw [items_of_neither hv hclose hcomma] at h
      cases h

/-- What is read as a key and a colon is spelled as a key, with its gaps. -/
theorem exists_key {r q t : List Char} {k : String} (hk : string ('"' :: r) r = .ok (k, q))
    (hq : skip q = ':' :: t) : ∃ key : Key, '"' :: r = key.chars ++ skip t ∧ key.name = k := by
  obtain ⟨gs, rfl, rfl⟩ := string_eq_ok_iff.1 hk
  obtain ⟨before, hbefore⟩ := exists_gap q
  obtain ⟨behind, hbehind⟩ := exists_gap t
  refine ⟨⟨gs, before, behind⟩, ?_, rfl⟩
  conv => lhs; rw [hbefore, hq, hbehind]
  simp [Key.chars, quoted]

theorem membersSpelled_succ (hvalues : ValuesSpelled depth) (hmembers : MembersSpelled depth) :
    MembersSpelled (depth + 1) := by
  intro room s ms rest h
  rcases members_key depth room s with ⟨r, k, q, t, rfl, hk, hq⟩ | ⟨f, place, herror⟩
  · obtain ⟨key, hkey, rfl⟩ := exists_key hk hq
    cases hv : value depth room (skip t) with
    | error stop =>
      rw [members_of_error hk hq hv] at h
      cases h
    | ok x =>
      obtain ⟨v, r⟩ := x
      obtain ⟨sp, ht, rfl, hroom⟩ := hvalues hv
      obtain ⟨gap, hgap⟩ := exists_gap r
      rcases close_or_comma '\x7d' r with ⟨u, hr⟩ | ⟨u, hr⟩ | ⟨hclose, hcomma⟩
      · rw [members_of_close hk hq hv hr] at h
        cases h
        refine ⟨.last key sp gap, ?_, rfl, hroom⟩
        rw [hkey, ht, hgap, hr]
        simp [Members.text]
      · rw [members_of_comma hk hq hv hr] at h
        obtain ⟨⟨ws, rest'⟩, hi, heq⟩ := exists_of_map_eq_ok h
        cases heq
        obtain ⟨ms, hu, rfl, hroom'⟩ := hmembers hi
        obtain ⟨behind', hbehind'⟩ := exists_gap u
        refine ⟨.more key sp gap behind' ms, ?_, rfl, Nat.max_le.2 ⟨hroom, hroom'⟩⟩
        rw [hkey, ht, hgap, hr, hbehind', hu]
        simp [Members.text]
      · rw [members_of_neither hk hq hv hclose hcomma] at h
        cases h
  · rw [herror] at h
    cases h

/-- **Whatever the reader accepts is a spelling**, whose brackets have found room. -/
theorem all_spelled (depth : Nat) :
    ValuesSpelled depth ∧ ItemsSpelled depth ∧ MembersSpelled depth := by
  induction depth with
  | zero => exact ⟨fun h => (by cases h), fun h => (by cases h), fun h => (by cases h)⟩
  | succ depth ih =>
    obtain ⟨hvalues, hitems, hmembers⟩ := ih
    exact ⟨valuesSpelled_succ hitems hmembers, itemsSpelled_succ hvalues hitems,
      membersSpelled_succ hvalues hmembers⟩

/-! ## Documents -/

/-- A document with a value behind its blanks begins with no byte order mark. -/
theorem ne_mark_of_opens {c : Char} (hopens : Opens c) (before : Gap) (r t : List Char) :
    before.chars ++ c :: r ≠ '\ufeff' :: t := by
  obtain ⟨chars, hchars⟩ := before
  cases chars with
  | nil => exact fun h => hopens.ne_mark (List.cons.inj h).1
  | cons d chars =>
    intro h
    have hd := hchars d List.mem_cons_self
    rw [(List.cons.inj h).1] at hd
    exact absurd hd (by decide)

theorem ne_mark_of_spelling (sp : Spelling) (before : Gap) (rest t : List Char) :
    before.chars ++ (sp.text ++ rest) ≠ '\ufeff' :: t := by
  obtain ⟨c, r, hc, hopens⟩ := sp.exists_head
  rw [hc]
  exact ne_mark_of_opens hopens before (r ++ rest) t

/-- A document with blanks around a spelling has its value, unless it is nested too deeply. -/
theorem document_eq (sp : Spelling) (room : Nat) (before behind : Gap) :
    document room (before.chars ++ (sp.text ++ behind.chars)) =
      unlessTooDeep (sp.tooDeep? room) sp.value := by
  have hbounded : Bounded behind.chars := by
    simpa using bounded_gap behind (s := []) (by simp [Bounded])
  have hread := sp.value_text (2 * (before.chars ++ (sp.text ++ behind.chars)).length + 2) room
    (by simp; omega) hbounded
  -- what follows the value must be blank, and all of the blanks are skipped
  rw [document.eq_2 _ _ (ne_mark_of_spelling sp before behind.chars),
    skip_gap before (sp.solid behind.chars), hread]
  cases sp.tooDeep? room with
  | some b => rfl
  | none => simp [unlessTooDeep, skip_gap_nil]

/-- What is read as a document is a spelling with blanks around it. -/
theorem exists_spelling_of_document {room : Nat} {s : List Char} {v : Json}
    (h : document room s = .ok v) :
    ∃ (sp : Spelling) (before behind : Gap), s = before.chars ++ (sp.text ++ behind.chars) ∧
      sp.value = v ∧ sp.nesting ≤ room := by
  by_cases hmark : ∃ t, s = '\ufeff' :: t
  · obtain ⟨t, rfl⟩ := hmark
    cases h
  · rw [document.eq_2 _ _ fun t ht => hmark ⟨t, ht⟩] at h
    cases hv : value (2 * s.length + 2) room (skip s) with
    | error stop =>
      rw [hv] at h
      cases h
    | ok x =>
      obtain ⟨v', r⟩ := x
      rw [hv] at h
      dsimp only at h
      split at h
      next hr =>
        cases h
        obtain ⟨sp, hs, hvalue, hnesting⟩ := (all_spelled _).1 hv
        obtain ⟨before, hbefore⟩ := exists_gap s
        obtain ⟨behind, hbehind⟩ := exists_gap r
        refine ⟨sp, before, behind, ?_, hvalue, hnesting⟩
        rw [hbefore, hs, hbehind, hr, List.append_nil]
      next => cases h

/-- **The reading of a document that spells a value**: the value, unless a bracket is nested too
deeply. -/
theorem read_of_spells {sp : Spelling} {s : String} (hs : sp.Spells s) :
    read s =
      match sp.tooDeep? deepest with
      | some b => .error (.nesting b)
      | none => .ok sp.value := by
  obtain ⟨before, behind, hs⟩ := hs
  rw [read, readWithin, hs, document_eq]
  cases sp.tooDeep? deepest <;> rfl

/-- **A document is read exactly when it spells a value**, and it is read as that value. -/
theorem read_eq_ok_iff {s : String} {v : Json} :
    read s = .ok v ↔ ∃ sp : Spelling, sp.Spells s ∧ sp.value = v ∧ sp.nesting ≤ deepest := by
  constructor
  · intro h
    cases hd : document deepest s.toList with
    | error stop =>
      rw [read, readWithin, hd] at h
      cases stop <;> cases h
    | ok v' =>
      rw [read, readWithin, hd] at h
      cases h
      obtain ⟨sp, before, behind, hs, hv, hnesting⟩ := exists_spelling_of_document hd
      exact ⟨sp, ⟨before, behind, hs⟩, hv, hnesting⟩
  · rintro ⟨sp, hs, rfl, hnesting⟩
    rw [read_of_spells hs, (sp.tooDeep?_eq_none_iff deepest).2 hnesting]

/-- **A spelling that is nested too deeply is refused** for that reason. -/
theorem exists_nesting_of_lt {sp : Spelling} {s : String} (hs : sp.Spells s)
    (h : deepest < sp.nesting) : ∃ b, read s = .error (.nesting b) := by
  have hdeep : sp.tooDeep? deepest ≠ none := fun hnone =>
    Nat.not_le.2 h ((sp.tooDeep?_eq_none_iff deepest).1 hnone)
  obtain ⟨b, hb⟩ := Option.ne_none_iff_exists'.1 hdeep
  exact ⟨b, by rw [read_of_spells hs, hb]⟩

end LintGate.Json
