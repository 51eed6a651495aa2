import LintGate.Text.Encoding
import Mathlib.Tactic.SplitIfs

/-!
# Bytes that are text

A decoder that refuses malformed bytes gives a text back for exactly the bytes that encode one, and
it gives back the text that they encode (`decode_utf8_eq_ok_iff`). What the bytes of a character are
is said by the standard library (`String.utf8EncodeChar`).

What connects the two is the `Sequence` of a character, with one constructor for each number of
bytes. It is read as the character, what is read as a character is a sequence, and it is what the
character is encoded as. The bounds on its second byte (`isSecond_iff`) are what makes it unique:
they keep out what fewer bytes could encode, the surrogates, and what lies beyond the last code
point.
-/

namespace LintGate.Text

/-- Refusing decodes exactly what falls into characters. -/
theorem decode_refuse_eq_ok_iff {code : Code} {bs : List UInt8} {s : List Char} :
    decode code .refuse bs = .ok s ↔ code.pieces bs = s.map .char := by
  have hassemble : ∀ (ps : List Piece) (offset : Nat) (s : List Char),
      code.assemble .refuse offset ps = .ok s ↔ ps = s.map .char := by
    intro ps
    induction ps with
    | nil =>
      intro offset s
      cases s <;> simp [Code.assemble]
    | cons p ps ih =>
      intro offset s
      cases p with
      | bad bytes why => cases s <;> simp [Code.assemble]
      | char c =>
        rw [Code.assemble]
        constructor
        · intro h
          cases hps : code.assemble .refuse (offset + code.bytesOf c) ps with
          | error f =>
            rw [hps] at h
            cases h
          | ok t =>
            rw [hps] at h
            cases h
            rw [(ih _ t).1 hps, List.map_cons]
        · intro h
          cases s with
          | nil => cases h
          | cons d t =>
            cases h
            rw [(ih _ t).2 rfl]
            rfl
  exact hassemble _ 0 s

/-! ## Ranges -/

theorem isContinuation_iff {b : UInt8} :
    isContinuation b = true ↔ 0x80 ≤ b.toNat ∧ b.toNat ≤ 0xbf := by
  simp [isContinuation, UInt8.le_iff_toNat_le]

/-- **The second byte** goes on with the sequence, and four first bytes leave it less room. -/
theorem isSecond_iff {a b : UInt8} :
    isSecond a b = true ↔ (0x80 ≤ b.toNat ∧ b.toNat ≤ 0xbf) ∧
      (a.toNat = 0xe0 → 0xa0 ≤ b.toNat) ∧ (a.toNat = 0xed → b.toNat ≤ 0x9f) ∧
      (a.toNat = 0xf0 → 0x90 ≤ b.toNat) ∧ (a.toNat = 0xf4 → b.toNat ≤ 0x8f) := by
  simp only [isSecond, ← UInt8.toNat_inj, UInt8.reduceToNat]
  split_ifs <;>
    simp only [isContinuation, Bool.and_eq_true, decide_eq_true_eq, UInt8.le_iff_toNat_le,
      UInt8.reduceToNat] <;> omega

/-- The first byte of a sequence, by the number of its bytes. -/
theorem bounds_of_sequenceBytes {a : UInt8} {n : Nat} (h : sequenceBytes a = n) :
    (n = 1 → a.toNat < 128) ∧ (n = 2 → 0xc2 ≤ a.toNat ∧ a.toNat ≤ 0xdf) ∧
      (n = 3 → 0xe0 ≤ a.toNat ∧ a.toNat ≤ 0xef) ∧
      (4 ≤ n → 0xf0 ≤ a.toNat ∧ a.toNat ≤ 0xf4) := by
  unfold sequenceBytes at h
  simp only [Bool.and_eq_true, decide_eq_true_eq, UInt8.lt_iff_toNat_lt,
    UInt8.le_iff_toNat_le, UInt8.reduceToNat] at h
  split_ifs at h <;> omega

/-- How many bytes a sequence has, by its first one. -/
theorem sequenceBytes_of_bounds (a : UInt8) :
    (0xc2 ≤ a.toNat ∧ a.toNat ≤ 0xdf → sequenceBytes a = 2) ∧
      (0xe0 ≤ a.toNat ∧ a.toNat ≤ 0xef → sequenceBytes a = 3) ∧
      (0xf0 ≤ a.toNat ∧ a.toNat ≤ 0xf4 → sequenceBytes a = 4) := by
  simp only [sequenceBytes, Bool.and_eq_true, decide_eq_true_eq, UInt8.lt_iff_toNat_lt,
    UInt8.le_iff_toNat_le, UInt8.reduceToNat]
  split_ifs <;> omega

/-- A code point that is no surrogate is that of its character. -/
theorem val_ofNat {v : Nat} (h : v < 0xd800 ∨ 0xdfff < v ∧ v < 0x110000) :
    (Char.ofNat v).val.toNat = v := by
  have hvalid : v.isValidChar := h
  rw [Char.ofNat, dif_pos hvalid]
  rfl

/-! ## Sequences -/

/-- **An ASCII byte.** -/
def IsAscii (b : UInt8) : Prop := b < 0x80

instance (b : UInt8) : Decidable (IsAscii b) := inferInstanceAs (Decidable (b < 0x80))

/-- The character of an ASCII byte. -/
def asciiChar (b : UInt8) : Char := Char.ofNat b.toNat

theorem utf8Piece_of_isAscii {x : UInt8} (hx : IsAscii x) (r : List UInt8) :
    utf8Piece x r = (.char (asciiChar x), 0) := by
  have hone : sequenceBytes x = 1 := if_pos hx
  unfold utf8Piece
  rw [hone]
  rfl

/-- **A sequence** of bytes, the first one and the others, that encodes a character. -/
inductive Sequence : Char → UInt8 → List UInt8 → Prop
  /-- One byte. -/
  | one {a : UInt8} (first : IsAscii a) : Sequence (asciiChar a) a []
  /-- Two bytes. -/
  | two {a b : UInt8} (first : 0xc2 ≤ a.toNat ∧ a.toNat ≤ 0xdf) (second : isContinuation b = true) :
      Sequence (.ofNat (a.toNat % 32 * 64 + payload b)) a [b]
  /-- Three bytes. -/
  | three {a b d : UInt8} (first : 0xe0 ≤ a.toNat ∧ a.toNat ≤ 0xef) (second : isSecond a b = true)
      (third : isContinuation d = true) :
      Sequence (.ofNat ((a.toNat % 16 * 64 + payload b) * 64 + payload d)) a [b, d]
  /-- Four bytes. -/
  | four {a b d e : UInt8} (first : 0xf0 ≤ a.toNat ∧ a.toNat ≤ 0xf4) (second : isSecond a b = true)
      (third : isContinuation d = true) (fourth : isContinuation e = true) :
      Sequence (.ofNat (((a.toNat % 8 * 64 + payload b) * 64 + payload d) * 64 + payload e)) a
        [b, d, e]

/-- **A sequence is read as its character**, and nothing behind it is. -/
theorem Sequence.utf8Piece_append {c : Char} {a : UInt8} {tail : List UInt8}
    (h : Sequence c a tail) (r : List UInt8) :
    utf8Piece a (tail ++ r) = (.char c, tail.length) := by
  cases h with
  | one first => exact utf8Piece_of_isAscii first r
  | two first second =>
    have hn : sequenceBytes a = 2 := (sequenceBytes_of_bounds a).1 first
    simp only [utf8Piece, hn, List.cons_append, List.nil_append, second, if_true]
    rfl
  | three first second third =>
    have hn : sequenceBytes a = 3 := (sequenceBytes_of_bounds a).2.1 first
    simp only [utf8Piece, hn, List.cons_append, List.nil_append, second, third, if_true]
    rfl
  | four first second third fourth =>
    have hn : sequenceBytes a = 4 := (sequenceBytes_of_bounds a).2.2 first
    simp only [utf8Piece, hn, List.cons_append, List.nil_append, second, third, fourth, if_true]
    rfl

/-- **What is read as a character is a sequence** for it. -/
theorem exists_sequence_of_utf8Piece {a : UInt8} {r : List UInt8} {c : Char} {taken : Nat}
    (h : utf8Piece a r = (.char c, taken)) :
    ∃ tail rest, r = tail ++ rest ∧ taken = tail.length ∧ Sequence c a tail := by
  obtain ⟨hone, htwo, hthree, hfour⟩ := bounds_of_sequenceBytes (a := a) rfl
  unfold utf8Piece at h
  split at h
  next => cases h
  next hn =>
    cases h
    refine ⟨[], _, rfl, rfl, .one ?_⟩
    rw [IsAscii, UInt8.lt_iff_toNat_lt]
    exact hone hn
  next => cases h
  next b s hn =>
    split at h
    next hb =>
      cases h
      exact ⟨[b], s, rfl, rfl, .two (htwo hn) hb⟩
    next => cases h
  next b s hn0 hn1 hn2 =>
    split at h
    next hb =>
      split at h
      next => cases h
      next d t hn =>
        split at h
        next hd =>
          cases h
          exact ⟨[b, d], t, rfl, rfl, .three (hthree hn) hb hd⟩
        next => cases h
      next d t hn3 =>
        split at h
        next hd =>
          split at h
          next => cases h
          next e u =>
            split at h
            next he =>
              cases h
              have hn : 4 ≤ sequenceBytes a := by
                have hne : sequenceBytes a ≠ 0 ∧ sequenceBytes a ≠ 1 ∧ sequenceBytes a ≠ 2 ∧
                  sequenceBytes a ≠ 3 := ⟨hn0, hn1, hn2, hn3⟩
                omega
              exact ⟨[b, d, e], u, rfl, rfl, .four (hfour hn) hb hd he⟩
            next => cases h
        next => cases h
    next => cases h

/-- **A sequence is what its character is encoded as.** -/
theorem Sequence.utf8EncodeChar_eq {c : Char} {a : UInt8} {tail : List UInt8}
    (h : Sequence c a tail) : String.utf8EncodeChar c = a :: tail := by
  have hbyte : ∀ {n : Nat} {x : UInt8}, n = x.toNat → UInt8.ofNat n = x := by
    rintro n x rfl
    exact UInt8.ofNat_toNat
  cases h with
  | one first =>
    have ha : a.toNat < 128 := UInt8.lt_iff_toNat_lt.1 first
    rw [asciiChar, String.utf8EncodeChar, val_ofNat (by omega), if_pos (by omega),
      UInt8.ofNat_toNat]
  | @two _ b first second =>
    have hb := isContinuation_iff.1 second
    rw [payload, String.utf8EncodeChar, val_ofNat (by omega), if_neg (by omega),
      if_pos (by omega), hbyte (x := a) (by omega), hbyte (x := b) (by omega)]
  | @three _ b d first second third =>
    have hb := isSecond_iff.1 second
    have hd := isContinuation_iff.1 third
    rw [payload, payload, String.utf8EncodeChar, val_ofNat (by omega), if_neg (by omega),
      if_neg (by omega), if_pos (by omega), hbyte (x := a) (by omega), hbyte (x := b) (by omega),
      hbyte (x := d) (by omega)]
  | @four _ b d e first second third fourth =>
    have hb := isSecond_iff.1 second
    have hd := isContinuation_iff.1 third
    have he := isContinuation_iff.1 fourth
    rw [payload, payload, payload, String.utf8EncodeChar, val_ofNat (by omega), if_neg (by omega),
      if_neg (by omega), if_neg (by omega), hbyte (x := a) (by omega), hbyte (x := b) (by omega),
      hbyte (x := d) (by omega), hbyte (x := e) (by omega)]

/-- Every character has a sequence. -/
theorem exists_sequence (c : Char) : ∃ a tail, Sequence c a tail := by
  have hvalid : c.val.toNat < 0xd800 ∨ 0xdfff < c.val.toNat ∧ c.val.toNat < 0x110000 := c.valid
  have hc : Char.ofNat c.val.toNat = c := Char.ofNat_toNat c
  generalize c.val.toNat = v at hvalid hc
  subst hc
  have hbyte : ∀ n < 256, ∃ a : UInt8, a.toNat = n :=
    fun n hn => ⟨.ofNat n, UInt8.toNat_ofNat_of_lt' hn⟩
  obtain ⟨e, he⟩ := hbyte (v % 64 + 128) (by omega)
  have hcont : isContinuation e = true := isContinuation_iff.2 (by omega)
  -- the last byte carries the lowest bits; how many more bytes it takes is told by the rest
  by_cases hone : v < 128
  · obtain ⟨a, rfl⟩ := hbyte v (by omega)
    exact ⟨a, [], .one (UInt8.lt_iff_toNat_lt.2 hone)⟩
  by_cases htwo : v < 2048
  · obtain ⟨a, ha⟩ := hbyte (v / 64 + 192) (by omega)
    have hv : v = a.toNat % 32 * 64 + payload e := by
      rw [payload]
      omega
    exact ⟨a, [e], hv ▸ .two (by omega) hcont⟩
  obtain ⟨d, hd⟩ := hbyte (v / 64 % 64 + 128) (by omega)
  have hcont' : isContinuation d = true := isContinuation_iff.2 (by omega)
  by_cases hthree : v < 65536
  · obtain ⟨a, ha⟩ := hbyte (v / 4096 + 224) (by omega)
    have hv : v = (a.toNat % 16 * 64 + payload d) * 64 + payload e := by
      rw [payload, payload]
      omega
    exact ⟨a, [d, e], hv ▸ .three (by omega) (isSecond_iff.2 (by omega)) hcont⟩
  · obtain ⟨b, hb⟩ := hbyte (v / 4096 % 64 + 128) (by omega)
    obtain ⟨a, ha⟩ := hbyte (v / 262144 + 240) (by omega)
    have hv : v = ((a.toNat % 8 * 64 + payload b) * 64 + payload d) * 64 + payload e := by
      rw [payload, payload, payload]
      omega
    exact ⟨a, [b, d, e], hv ▸ .four (by omega) (isSecond_iff.2 (by omega)) hcont' hcont⟩

/-! ## Texts -/

/-- The next piece, and the pieces behind it. -/
theorem utf8PiecesFrom_zero (a : UInt8) (r : List UInt8) :
    utf8PiecesFrom 0 (a :: r)
      = (utf8Piece a r).1 :: utf8PiecesFrom (utf8Piece a r).2 r := rfl

/-- Bytes that a piece has taken are skipped. -/
theorem utf8PiecesFrom_append (taken bs : List UInt8) :
    utf8PiecesFrom taken.length (taken ++ bs) = utf8Pieces bs := by
  induction taken with
  | nil => rfl
  | cons a taken ih => exact ih

/-- The bytes of a text fall into its characters. -/
theorem utf8Pieces_encoded (s : List Char) :
    utf8Pieces (s.flatMap String.utf8EncodeChar) = s.map .char := by
  induction s with
  | nil => rfl
  | cons c s ih =>
    obtain ⟨a, tail, hsequence⟩ := exists_sequence c
    rw [List.flatMap_cons, hsequence.utf8EncodeChar_eq, List.cons_append, utf8Pieces,
      utf8PiecesFrom_zero, hsequence.utf8Piece_append, utf8PiecesFrom_append, ih]
    rfl

/-- Bytes that fall into characters are those of a text. -/
theorem eq_of_utf8Pieces {bs : List UInt8} {s : List Char} (h : utf8Pieces bs = s.map .char) :
    bs = s.flatMap String.utf8EncodeChar := by
  induction s generalizing bs with
  | nil =>
    cases bs with
    | nil => rfl
    | cons a r => cases h
  | cons c s ih =>
    cases bs with
    | nil => cases h
    | cons a r =>
      rw [utf8Pieces, utf8PiecesFrom_zero, List.map_cons, List.cons.injEq] at h
      obtain ⟨hpiece, hrest⟩ := h
      obtain ⟨tail, rest, rfl, -, hsequence⟩ :=
        exists_sequence_of_utf8Piece (Prod.ext hpiece rfl)
      rw [hsequence.utf8Piece_append, utf8PiecesFrom_append] at hrest
      rw [List.flatMap_cons, hsequence.utf8EncodeChar_eq, ← ih hrest, List.cons_append]

/-- **Bytes are decoded exactly when they encode a text**, and then to that text. -/
theorem decode_utf8_eq_ok_iff {bs : List UInt8} {s : List Char} :
    decode .utf8 .refuse bs = .ok s ↔ bs = s.flatMap String.utf8EncodeChar := by
  rw [decode_refuse_eq_ok_iff]
  refine ⟨eq_of_utf8Pieces, ?_⟩
  rintro rfl
  exact utf8Pieces_encoded s

end LintGate.Text
