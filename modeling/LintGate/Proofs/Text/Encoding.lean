import LintGate.Proofs.Text.Utf8

/-!
# ASCII in bytes that are no text

Bytes that encode no character are replaced by a character that says so. How many of them one such
character stands for depends on the bytes around: a sequence that is cut short ends where the next
byte cannot continue it. `replaced` is the text that comes of it.

An ASCII byte never continues a sequence. It therefore cuts the bytes in two: what stands before it
becomes the text that it would be on its own, the byte becomes its character, and what stands behind
is read afresh (`replaced_append_ascii`). And since longer sequences encode none of its characters,
ASCII in the text comes from ASCII bytes only (`mem_of_mem_replaced`).
-/

namespace LintGate.Text

/-- What a piece becomes when malformed runs are replaced. -/
def Piece.replacement : Piece → List Char
  | .char c => [c]
  | .bad _ _ => ['\ufffd']

/-- **Bytes as text**, each malformed run replaced by one character. -/
def replaced (bs : List UInt8) : List Char := (utf8Pieces bs).flatMap Piece.replacement

/-- Decoding with replacement always succeeds. -/
theorem decode_utf8_replace (bs : List UInt8) : decode .utf8 .replace bs = .ok (replaced bs) := by
  have hpieces : ∀ (ps : List Piece) (offset : Nat),
      Code.assemble .utf8 .replace offset ps = .ok (ps.flatMap Piece.replacement) := by
    intro ps
    induction ps with
    | nil => exact fun offset => rfl
    | cons p ps ih =>
      intro offset
      cases p with
      | char c => simp [Code.assemble, ih, Except.map, Piece.replacement]
      | bad bytes why =>
        simp [Code.assemble, ih, Except.map, Piece.replacement, Repair.instead]
  exact hpieces _ 0

/-! ## An ASCII byte cuts -/

theorem isContinuation_of_isAscii {x : UInt8} (hx : IsAscii x) : isContinuation x = false := by
  have hx' : x.toNat < 128 := UInt8.lt_iff_toNat_lt.1 hx
  rw [← Bool.not_eq_true, isContinuation_iff]
  omega

/-- An ASCII byte follows no byte of a sequence. -/
theorem isSecond_of_isAscii (a : UInt8) {x : UInt8} (hx : IsAscii x) : isSecond a x = false := by
  have hx' : x.toNat < 128 := UInt8.lt_iff_toNat_lt.1 hx
  rw [← Bool.not_eq_true, isSecond_iff]
  omega

/-- **A piece ends before an ASCII byte**: the byte changes neither what the piece becomes nor how
many bytes it takes. -/
theorem utf8Piece_append_ascii (a : UInt8) (r : List UInt8) {x : UInt8} (hx : IsAscii x)
    (s : List UInt8) :
    (utf8Piece a (r ++ x :: s)).1.replacement = (utf8Piece a r).1.replacement ∧
      (utf8Piece a (r ++ x :: s)).2 = (utf8Piece a r).2 ∧ (utf8Piece a r).2 ≤ r.length := by
  have hc := isContinuation_of_isAscii hx
  have hs := isSecond_of_isAscii a hx
  -- the cases are the bytes that a sequence still wants, and how many of these there are
  unfold utf8Piece
  rcases sequenceBytes a with _ | _ | _ | _ | n
  · simp
  · simp
  · rcases r with _ | ⟨b, r⟩
    · simp [hc, Piece.replacement]
    · cases hb : isContinuation b <;> simp [hb]
  · rcases r with _ | ⟨b, _ | ⟨c, r⟩⟩
    · simp [hs, Piece.replacement]
    · cases hb : isSecond a b <;> simp [hb, hc, Piece.replacement]
    · cases hb : isSecond a b <;> cases hd : isContinuation c <;> simp [hb, hd]
  · rcases r with _ | ⟨b, _ | ⟨c, _ | ⟨d, r⟩⟩⟩
    · simp [hs, Piece.replacement]
    · cases hb : isSecond a b <;> simp [hb, hc, Piece.replacement]
    · cases hb : isSecond a b <;> cases hd : isContinuation c <;>
        simp [hb, hd, hc, Piece.replacement]
    · cases hb : isSecond a b <;> cases hd : isContinuation c <;>
        cases he : isContinuation d <;> simp [hb, hd, he]

/-- **An ASCII byte cuts the bytes in two.** No sequence that is cut short before it swallows it or
anything behind it. -/
theorem replaced_append_ascii (r : List UInt8) {x : UInt8} (hx : IsAscii x) (s : List UInt8) :
    replaced (r ++ x :: s) = replaced r ++ asciiChar x :: replaced s := by
  -- bytes that a piece has taken are still to be skipped, and the ASCII byte is not among them
  have hfrom : ∀ (r : List UInt8) (skip : Nat), skip ≤ r.length →
      (utf8PiecesFrom skip (r ++ x :: s)).flatMap Piece.replacement
        = (utf8PiecesFrom skip r).flatMap Piece.replacement ++ asciiChar x :: replaced s := by
    intro r
    induction r with
    | nil =>
      intro skip hskip
      obtain rfl : skip = 0 := Nat.le_zero.1 hskip
      rw [List.nil_append, utf8PiecesFrom_zero, utf8Piece_of_isAscii hx]
      rfl
    | cons a r ih =>
      intro skip hskip
      cases skip with
      | succ skip => exact ih skip (Nat.le_of_succ_le_succ hskip)
      | zero =>
        obtain ⟨htext, htaken, hle⟩ := utf8Piece_append_ascii a r hx s
        rw [List.cons_append, utf8PiecesFrom_zero, utf8PiecesFrom_zero, List.flatMap_cons,
          List.flatMap_cons, htext, htaken, ih _ hle, List.append_assoc]
  exact hfrom r 0 (Nat.zero_le _)

/-- An ASCII byte in front becomes its character. -/
theorem replaced_cons_ascii {x : UInt8} (hx : IsAscii x) (s : List UInt8) :
    replaced (x :: s) = asciiChar x :: replaced s :=
  replaced_append_ascii [] hx s

/-! ## ASCII text -/

/-- **The bytes of ASCII text.** -/
def asciiBytes (s : List Char) : List UInt8 := s.map fun c => UInt8.ofNat c.toNat

/-- **ASCII text in front is read as itself.** -/
theorem replaced_asciiBytes_append {s : List Char} (h : ∀ c ∈ s, c.toNat < 128)
    (bs : List UInt8) : replaced (asciiBytes s ++ bs) = s ++ replaced bs := by
  induction s with
  | nil => rfl
  | cons c s ih =>
    have hc : c.toNat < 128 := h c List.mem_cons_self
    have hbyte : (UInt8.ofNat c.toNat).toNat = c.toNat := by
      rw [UInt8.toNat_ofNat']
      exact Nat.mod_eq_of_lt (by omega)
    have hascii : IsAscii (UInt8.ofNat c.toNat) := by
      rw [IsAscii, UInt8.lt_iff_toNat_lt, hbyte]
      exact hc
    have hchar : asciiChar (UInt8.ofNat c.toNat) = c := by
      rw [asciiChar, hbyte, Char.ofNat_toNat]
    have hcons : asciiBytes (c :: s) ++ bs = UInt8.ofNat c.toNat :: (asciiBytes s ++ bs) := rfl
    rw [hcons, replaced_cons_ascii hascii, hchar, ih fun d hd => h d (List.mem_cons_of_mem _ hd)]
    rfl

/-! ## Where ASCII comes from -/

/-- **Only its own byte becomes an ASCII character**: what is read as a character is what encodes
it. -/
theorem eq_of_utf8Piece_ascii {a : UInt8} {r : List UInt8} {c : Char}
    (h : (utf8Piece a r).1 = .char c) (hc : c.toNat < 128) : a = UInt8.ofNat c.toNat := by
  obtain ⟨tail, rest, -, -, hsequence⟩ := exists_sequence_of_utf8Piece (Prod.ext h rfl)
  have hone : c.val.toNat ≤ 127 := Nat.le_of_lt_succ hc
  have hencoded := hsequence.utf8EncodeChar_eq
  rw [String.utf8EncodeChar, if_pos hone] at hencoded
  exact (List.head_eq_of_cons_eq hencoded).symm

/-- **ASCII in the text comes from ASCII bytes.** -/
theorem mem_of_mem_replaced {c : Char} (hc : c.toNat < 128) {bs : List UInt8}
    (h : c ∈ replaced bs) : UInt8.ofNat c.toNat ∈ bs := by
  have hfrom : ∀ (bs : List UInt8) (skip : Nat),
      c ∈ (utf8PiecesFrom skip bs).flatMap Piece.replacement → UInt8.ofNat c.toNat ∈ bs := by
    intro bs
    induction bs with
    | nil =>
      intro skip hmem
      rw [utf8PiecesFrom] at hmem
      cases hmem
    | cons a r ih =>
      intro skip hmem
      cases skip with
      | succ skip => exact List.mem_cons_of_mem _ (ih skip hmem)
      | zero =>
        rw [utf8PiecesFrom_zero, List.flatMap_cons, List.mem_append] at hmem
        rcases hmem with hpiece | hrest
        · cases hp : (utf8Piece a r).1 with
          | char d =>
            obtain rfl : c = d := by simpa [hp, Piece.replacement] using hpiece
            rw [eq_of_utf8Piece_ascii hp hc]
            exact List.mem_cons_self
          | bad bytes why =>
            obtain rfl : c = '\ufffd' := by simpa [hp, Piece.replacement] using hpiece
            exact absurd hc (by decide)
        · exact List.mem_cons_of_mem _ (ih _ hrest)
  exact hfrom bs 0 h

end LintGate.Text
