/-!
# Decimal numerals

A numeral may be written in the decimal digits of any script: `digitZeros` lists where the ten
digits of each script begin. A numeral of more than `longest` digits, leading zeros counted, is
refused; `readNumeral` then tells how many digits there were.
-/

namespace LintGate.Text

/-- The zeros of the scripts that write decimal numerals; the other nine digits follow each. -/
def digitZeros : List Nat := [
  0x30, 0x660, 0x6f0, 0x7c0, 0x966, 0x9e6, 0xa66, 0xae6, 0xb66, 0xbe6, 0xc66, 0xce6, 0xd66,
  0xde6, 0xe50, 0xed0, 0xf20, 0x1040, 0x1090, 0x17e0, 0x1810, 0x1946, 0x19d0, 0x1a80, 0x1a90,
  0x1b50, 0x1bb0, 0x1c40, 0x1c50, 0xa620, 0xa8d0, 0xa900, 0xa9d0, 0xa9f0, 0xaa50, 0xabf0,
  0xff10, 0x104a0, 0x10d30, 0x11066, 0x110f0, 0x11136, 0x111d0, 0x112f0, 0x11450, 0x114d0,
  0x11650, 0x116c0, 0x11730, 0x118e0, 0x11950, 0x11c50, 0x11d50, 0x11da0, 0x16a60, 0x16ac0,
  0x16b50, 0x1d7ce, 0x1d7d8, 0x1d7e2, 0x1d7ec, 0x1d7f6, 0x1e140, 0x1e2f0, 0x1e950, 0x1fbf0]

/-- **The value of a decimal digit** of any script. -/
def digit? (c : Char) : Option Nat :=
  digitZeros.findSome? fun z =>
    if z ≤ c.toNat && c.toNat ≤ z + 9 then some (c.toNat - z) else none

/-- The value of a decimal digit of ASCII. -/
def asciiDigit? (c : Char) : Option Nat :=
  if c.isDigit then some (c.toNat - 48) else none

/-- The number that digits write, the most significant first. -/
def numberOf (ds : List Nat) : Nat := ds.foldl (fun n d => 10 * n + d) 0

/-- The most digits a numeral may have. -/
def longest : Nat := 4300

/-- **The number a numeral writes**, or how many digits it has when they are too many. -/
def readNumeral (ds : List Nat) : Except Nat Nat :=
  if ds.length ≤ longest then .ok (numberOf ds) else .error ds.length

/-- The message about a numeral with too many digits. -/
def tooManyDigits (count : Nat) : String :=
  "Exceeds the limit (" ++ toString longest ++
    " digits) for integer string conversion: value has " ++ toString count ++
    " digits; use sys.set_int_max_str_digits() to increase the limit"

/-- The longest beginning of a text that consists of digits, by value, and what follows. -/
def spanDigits (digit : Char → Option Nat) : List Char → List Nat × List Char
  | [] => ([], [])
  | c :: r =>
    match digit c with
    | some d => let (ds, rest) := spanDigits digit r; (d :: ds, rest)
    | none => ([], c :: r)

/-- The character that writes a digit. -/
def digitChar (d : Fin 10) : Char := Nat.digitChar d

/-- Digits as they are written. -/
def digitChars (ds : List (Fin 10)) : List Char := ds.map digitChar

theorem digit?_digitChar : ∀ d : Fin 10, digit? (digitChar d) = some d.val := by decide

theorem asciiDigit?_digitChar : ∀ d : Fin 10, asciiDigit? (digitChar d) = some d.val := by decide

/-- **Digits are read up to what is none**, whatever else counts as a digit. -/
theorem spanDigits_digitChars {digit : Char → Option Nat}
    (hdigit : ∀ d : Fin 10, digit (digitChar d) = some d.val) (ds : List (Fin 10)) {r : List Char}
    (hr : ∀ c ∈ r.head?, digit c = none) :
    spanDigits digit (digitChars ds ++ r) = (ds.map Fin.val, r) := by
  induction ds with
  | nil =>
    cases r with
    | nil => rfl
    | cons c r => simp [digitChars, spanDigits, hr c rfl]
  | cons d ds ih =>
    simp only [digitChars, List.map_cons, List.cons_append, spanDigits, hdigit d]
    simp only [digitChars] at ih
    rw [ih]

/-- A numeral is read exactly when it is short enough. -/
theorem readNumeral_eq_ok_iff {ds : List Nat} {n : Nat} :
    readNumeral ds = .ok n ↔ ds.length ≤ longest ∧ numberOf ds = n := by
  by_cases h : ds.length ≤ longest <;> simp [readNumeral, h]

/-- A digit more makes the number ten times as large. -/
theorem numberOf_concat (ds : List Nat) (d : Nat) :
    numberOf (ds ++ [d]) = 10 * numberOf ds + d := by
  simp [numberOf]

/-- A natural number is printed in digits. -/
theorem isDigit_of_mem_toString {n : Nat} {c : Char} (h : c ∈ (toString n).toList) :
    c.isDigit = true := by
  have hdigits : (toString n).toList = Nat.toDigits 10 n := Nat.toList_repr
  exact Nat.isDigit_of_mem_toDigits (by decide) (by decide) (hdigits ▸ h)

end LintGate.Text
