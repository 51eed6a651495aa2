import LintGate.Json.Printer
import LintGate.Proofs.Json.Nesting
import LintGate.Proofs.Table

/-!
# Written documents are spellings

The spaced style writes a spelling of the value it is given (`exists_spelling_of_writable`): its
escapes stand for the characters they are made of, two of them for a character beyond the basic
plane, its numerals are the numbers, and its blanks stand between tokens. What the style does with
fractions is left open; the value must be one that can be written (`Writable`): each fraction is
written as a number or a word that means it, integers are not too long, and no key stands twice in
one object.
-/

namespace LintGate.Json

open LintGate.Text

theorem bracketDepth_write (style : Style) (j : Json) :
    bracketDepth (j.write style) = mostOpen 0 false (style.value j) := by
  rw [bracketDepth, write, String.toList_ofList]

/-! ## Characters -/

/-- Glyphs stand for one character, whatever follows them. -/
def StandsFor (gs : List Glyph) (c : Char) : Prop :=
  ∀ ps : List Piece, joinPieces (gs.map Glyph.piece ++ ps) = c :: joinPieces ps

theorem standsFor_short {letter c : Char} (h : shortEscape? letter = some c) :
    StandsFor [.short letter c h] c :=
  fun _ => rfl

theorem hexValue?_hexDigit : ∀ n : Fin 16, hexValue? (hexDigit n) = some n.val := by decide

/-- **Four hexadecimal digits write a code unit.** -/
theorem exists_unit {n : Nat} (h : n < 0x10000) :
    ∃ a b c d, hexDigits 4 n = [a, b, c, d] ∧ unit? a b c d = some n := by
  have hdigit : ∀ m, hexValue? (hexDigit (m % 16)) = some (m % 16) := fun m =>
    hexValue?_hexDigit ⟨m % 16, Nat.mod_lt m (by decide)⟩
  refine ⟨_, _, _, _, rfl, ?_⟩
  simp only [unit?, hdigit, Option.bind_eq_bind, Option.bind_some, Option.pure_def,
    Option.some.injEq]
  omega

/-- A code unit that is half of no pair is a character of its own. -/
theorem joinPieces_unit {n : Nat} (h : n < 0xd800 ∨ 0xe000 ≤ n) (ps : List Piece) :
    joinPieces (.unit n :: ps) = Char.ofNat n :: joinPieces ps := by
  have hlone : loneUnit n = Char.ofNat n := if_neg (by omega)
  rcases ps with _ | ⟨c | lo, ps⟩
  · simp [joinPieces, hlone]
  · simp [joinPieces, hlone]
  · rw [joinPieces, if_neg (by omega), hlone]

/-- **One or two code units write a character.** -/
theorem exists_glyphs_utf16Escape (c : Char) :
    ∃ gs : List Glyph, gs.flatMap Glyph.chars = utf16Escape c ∧ StandsFor gs c := by
  have hvalid : c.toNat < 0xd800 ∨ 0xdfff < c.toNat ∧ c.toNat < 0x110000 := c.valid
  unfold utf16Escape
  split
  next hplane =>
    obtain ⟨x, y, z, w, hdigits, hunit⟩ := exists_unit hplane
    refine ⟨[.unit x y z w c.toNat hunit], by simp [Glyph.chars, unitEscape, hdigits], fun ps => ?_⟩
    show joinPieces (.unit c.toNat :: ps) = _
    rw [joinPieces_unit (by omega), Char.ofNat_toNat]
  next hplane =>
    generalize hhi : 0xd800 + (c.toNat - 0x10000) / 0x400 = hi
    generalize hlo : 0xdc00 + (c.toNat - 0x10000) % 0x400 = lo
    have hpair : 0xd800 ≤ hi ∧ hi < 0xdc00 ∧ 0xdc00 ≤ lo ∧ lo < 0xe000 := by omega
    have hsum : 0x10000 + (hi - 0xd800) * 0x400 + (lo - 0xdc00) = c.toNat := by omega
    obtain ⟨x, y, z, w, hdigits, hunit⟩ := exists_unit (n := hi) (by omega)
    obtain ⟨x', y', z', w', hdigits', hunit'⟩ := exists_unit (n := lo) (by omega)
    refine ⟨[.unit x y z w hi hunit, .unit x' y' z' w' lo hunit'],
      by simp [Glyph.chars, unitEscape, hdigits, hdigits'], fun ps => ?_⟩
    show joinPieces (.unit hi :: .unit lo :: ps) = _
    rw [joinPieces, if_pos hpair, hsum, Char.ofNat_toNat]

/-- **Every character of a string is written by glyphs that stand for it.** -/
theorem exists_glyphs_char (c : Char) :
    ∃ gs : List Glyph, gs.flatMap Glyph.chars = spaced.char c ∧ StandsFor gs c := by
  have short : ∀ letter c : Char, shortEscape? letter = some c → spaced.char c = ['\\', letter] →
      ∃ gs : List Glyph, gs.flatMap Glyph.chars = spaced.char c ∧ StandsFor gs c :=
    fun letter c hletter hchar => ⟨[.short letter c hletter], hchar.symm, standsFor_short hletter⟩
  by_cases hquote : c = '"'
  · exact hquote ▸ short '"' '"' rfl rfl
  by_cases hbackslash : c = '\\'
  · exact hbackslash ▸ short '\\' '\\' rfl rfl
  by_cases hcontrol : c = '\n' ∨ c = '\r' ∨ c = '\t' ∨ c = '\x08' ∨ c = '\x0c'
  · rcases hcontrol with rfl | rfl | rfl | rfl | rfl
    · exact short 'n' '\n' rfl rfl
    · exact short 'r' '\r' rfl rfl
    · exact short 't' '\t' rfl rfl
    · exact short 'b' '\x08' rfl rfl
    · exact short 'f' '\x0c' rfl rfl
  obtain ⟨hn, hr, ht, hb, hf⟩ : c ≠ '\n' ∧ c ≠ '\r' ∧ c ≠ '\t' ∧ c ≠ '\x08' ∧ c ≠ '\x0c' := by
    simpa only [not_or] using hcontrol
  have hother : spaced.char c =
      if 0x20 ≤ c.toNat ∧ c.toNat < 0x7f then [c] else utf16Escape c := by
    unfold Style.char
    rw [if_neg hquote, if_neg hbackslash, if_neg hn, if_neg hr, if_neg ht, if_neg hb, if_neg hf]
    rfl
  rw [hother]
  split
  next hplain => exact ⟨[.plain c hquote hbackslash hplain.1], rfl, fun _ => rfl⟩
  next => exact exists_glyphs_utf16Escape c

/-- **A string is written by glyphs that spell it.** -/
theorem exists_glyphs_string (s : String) :
    ∃ gs : List Glyph, quoted gs = spaced.string s ∧ spelled gs = s := by
  have hchars : ∀ cs : List Char, ∃ gs : List Glyph,
      gs.flatMap Glyph.chars = cs.flatMap spaced.char ∧ joinPieces (gs.map Glyph.piece) = cs := by
    intro cs
    induction cs with
    | nil => exact ⟨[], rfl, rfl⟩
    | cons c cs ih =>
      obtain ⟨gs, hgs, hstands⟩ := exists_glyphs_char c
      obtain ⟨gs', hgs', hjoin⟩ := ih
      refine ⟨gs ++ gs', by rw [List.flatMap_append, hgs, hgs', List.flatMap_cons], ?_⟩
      rw [List.map_append, hstands, hjoin]
  obtain ⟨gs, hgs, hjoin⟩ := hchars s.toList
  refine ⟨gs, by simp [quoted, Style.string, hgs], ?_⟩
  rw [spelled, hjoin, String.ofList_toList]

/-! ## Integers -/

/-- **The digits of a number** write it, without superfluous zeros. -/
theorem exists_digits_toDigits (n : Nat) :
    ∃ ds : List (Fin 10), digitChars ds = Nat.toDigits 10 n ∧ numberOf (ds.map Fin.val) = n ∧
      (ds.head? = some 0 → ds = [0]) := by
  induction n using Nat.strongRecOn with
  | ind n ih =>
    by_cases hn : n < 10
    · refine ⟨[⟨n, hn⟩], by rw [Nat.toDigits_of_lt_base hn]; rfl, by simp [numberOf], ?_⟩
      intro hzero
      rw [Option.some.inj hzero]
    · have hten : 10 ≤ n := Nat.not_lt.1 hn
      obtain ⟨ds, hds, hnumber, hzero⟩ := ih (n / 10) (by omega)
      refine ⟨ds ++ [⟨n % 10, Nat.mod_lt n (by decide)⟩], ?_, ?_, ?_⟩
      · rw [Nat.toDigits_of_base_le (by decide) hten, ← hds, digitChars, List.map_append]
        rfl
      · rw [List.map_append, List.map_singleton, numberOf_concat, hnumber]
        exact Nat.div_add_mod n 10
      · intro hhead
        have hne : ds ≠ [] := by
          rintro rfl
          exact absurd hds.symm Nat.toDigits_ne_nil
        rw [List.head?_append_of_ne_nil _ hne] at hhead
        rw [hzero hhead] at hnumber
        have : n / 10 = 0 := hnumber.symm
        omega

/-- **An integer that is not too long is written as a number.** -/
theorem exists_numeral_toString {i : Int} (h : i.natAbs < Nat.pow 10 longest) :
    ∃ n : Numeral, n.chars = (toString i).toList ∧ n.value = .int i := by
  obtain ⟨ds, hds, hnumber, hzero⟩ := exists_digits_toDigits i.natAbs
  have hne : ds ≠ [] := by
    rintro rfl
    exact absurd hds.symm Nat.toDigits_ne_nil
  have hlength : ds.length ≤ longest := by
    rw [Nat.pow_eq] at h
    have hle := (Nat.length_toDigits_le_iff (by decide) (by decide : 0 < longest)).2 h
    rwa [← hds, digitChars, List.length_map] at hle
  cases i with
  | ofNat m =>
    refine ⟨⟨false, ds, hne, hzero, [], none, fun _ _ => hlength⟩, ?_, ?_⟩
    · show _ = (Nat.repr m).toList
      rw [Nat.toList_repr]
      simpa [Numeral.chars, fractionChars, exponentChars] using hds
    · show Json.int (numberOf (ds.map Fin.val) : Int) = _
      rw [hnumber]
      rfl
  | negSucc m =>
    refine ⟨⟨true, ds, hne, hzero, [], none, fun _ _ => hlength⟩, ?_, ?_⟩
    · show _ = ("-" ++ Nat.repr (m + 1)).toList
      rw [String.toList_append, Nat.toList_repr]
      simpa [Numeral.chars, fractionChars, exponentChars] using hds
    · show Json.int (-(numberOf (ds.map Fin.val) : Int)) = _
      rw [hnumber]
      rfl

/-! ## Values -/

mutual

/-- **A value that a style can write** so that it can be read again. -/
def Writable (style : Style) : Json → Prop
  | .null => True
  | .bool _ => True
  | .int i => i.natAbs < Nat.pow 10 longest
  | .frac x => ∃ sp : Spelling, sp.text = style.frac x ∧ sp.value = .frac x
  | .str _ => True
  | .arr vs => WritableItems style vs
  | .obj ms => (Table.keys ms).Nodup ∧ WritableMembers style ms

/-- Every item can be written. -/
def WritableItems (style : Style) : List Json → Prop
  | [] => True
  | v :: vs => Writable style v ∧ WritableItems style vs

/-- The value of every member can be written. -/
def WritableMembers (style : Style) : List (String × Json) → Prop
  | [] => True
  | (_, v) :: ms => Writable style v ∧ WritableMembers style ms

end

/-- An integer of one digit can be written. -/
theorem writable_int_of_lt_ten {style : Style} {i : Int} (h : i.natAbs < 10) :
    Writable style (.int i) := by
  have hne : longest ≠ 0 := by decide
  rw [Writable, Nat.pow_eq]
  -- any bound will do, and this one is not to be written out
  generalize longest = n at hne ⊢
  exact Nat.lt_of_lt_of_le h (Nat.le_self_pow hne 10)

/-- The spaced style with a way of writing fractions. -/
def spacedWith (frac : Binary → List Char) : Style := { spaced with frac := frac }

/-- The blank behind a comma or a colon. -/
def Gap.blank : Gap := ⟨[' '], List.forall_mem_singleton.2 rfl⟩

variable {frac : Binary → List Char}

mutual

/-- **What the spaced style writes is a spelling of the value.** -/
theorem exists_spelling_of_writable (j : Json) (h : Writable (spacedWith frac) j) :
    ∃ sp : Spelling, sp.text = (spacedWith frac).value j ∧ sp.value = j := by
  cases j with
  | null => exact ⟨.word ⟨"null".toList, .null, by simp [words]⟩, rfl, rfl⟩
  | bool b =>
    cases b with
    | false => exact ⟨.word ⟨"false".toList, .bool false, by simp [words]⟩, rfl, rfl⟩
    | true => exact ⟨.word ⟨"true".toList, .bool true, by simp [words]⟩, rfl, rfl⟩
  | int i =>
    obtain ⟨n, hchars, hvalue⟩ := exists_numeral_toString h
    exact ⟨.number n, hchars, hvalue⟩
  | frac x => exact h
  | str s =>
    obtain ⟨gs, hquoted, hspelled⟩ := exists_glyphs_string s
    exact ⟨.string gs, hquoted, congrArg Json.str hspelled⟩
  | arr vs =>
    by_cases hvs : vs = []
    · subst hvs
      exact ⟨.emptyArray .none, rfl, rfl⟩
    · obtain ⟨is, htext, hvalues⟩ := exists_items_of_writable vs hvs h
      refine ⟨.array .none is, ?_, congrArg Json.arr hvalues⟩
      rw [Spelling.text, htext]
      rfl
  | obj ms =>
    obtain ⟨hkeys, hmembers⟩ := h
    by_cases hms : ms = []
    · subst hms
      exact ⟨.emptyObject .none, rfl, rfl⟩
    · obtain ⟨members, htext, hvalues⟩ := exists_members_of_writable ms hms hmembers
      refine ⟨.object .none members, ?_, ?_⟩
      · rw [Spelling.text, htext]
        rfl
      · rw [Spelling.value, hvalues, ofMembers, Table.ofEntries_of_nodup hkeys]

theorem exists_items_of_writable (vs : List Json) (hne : vs ≠ [])
    (h : WritableItems (spacedWith frac) vs) :
    ∃ is : Items, is.text = (spacedWith frac).items vs ++ [']'] ∧ is.values = vs := by
  cases vs with
  | nil => exact absurd rfl hne
  | cons v vs =>
    obtain ⟨hv, hvs⟩ := h
    obtain ⟨sp, htext, hvalue⟩ := exists_spelling_of_writable v hv
    by_cases hlast : vs = []
    · subst hlast
      exact ⟨.last sp .none, by rw [Items.text, htext]; rfl, by rw [Items.values, hvalue]⟩
    · obtain ⟨is, hitems, hvalues⟩ := exists_items_of_writable vs hlast hvs
      refine ⟨.more sp .none .blank is, ?_, by rw [Items.values, hvalue, hvalues]⟩
      rw [Items.text, htext, hitems, Style.items.eq_3 _ v vs hlast]
      simp [spacedWith, spaced, Gap.none, Gap.blank]

theorem exists_members_of_writable (ms : List (String × Json)) (hne : ms ≠ [])
    (h : WritableMembers (spacedWith frac) ms) :
    ∃ members : Members, members.text = (spacedWith frac).members ms ++ ['\x7d'] ∧
      members.values = ms := by
  cases ms with
  | nil => exact absurd rfl hne
  | cons m ms =>
    obtain ⟨k, v⟩ := m
    obtain ⟨hv, hms⟩ := h
    obtain ⟨sp, htext, hvalue⟩ := exists_spelling_of_writable v hv
    obtain ⟨gs, hquoted, hspelled⟩ := exists_glyphs_string k
    let key : Key := ⟨gs, .none, .blank⟩
    have hkey : key.chars = (spacedWith frac).string k ++ (spacedWith frac).colon := by
      rw [Key.chars, hquoted]
      rfl
    have hname : key.name = k := hspelled
    by_cases hlast : ms = []
    · subst hlast
      refine ⟨.last key sp .none, ?_, by rw [Members.values, hname, hvalue]⟩
      rw [Members.text, htext, hkey, Style.members.eq_2]
      simp [Gap.none]
    · obtain ⟨members, hmembers, hvalues⟩ := exists_members_of_writable ms hlast hms
      refine ⟨.more key sp .none .blank members, ?_, by rw [Members.values, hname, hvalue, hvalues]⟩
      rw [Members.text, htext, hmembers, hkey, Style.members.eq_3 _ k v ms hlast]
      simp [spacedWith, spaced, Gap.none, Gap.blank]

end

end LintGate.Json
