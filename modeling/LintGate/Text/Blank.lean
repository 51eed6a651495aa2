/-!
# Blank characters and trimming

Two classes of blank characters are in use. `isBlank` is the class that trimming of ordinary
text goes by: the ASCII blanks with the four information separators, and every space and
separator beyond ASCII. `isSpace` is the narrower white-space property of the character
database, which leaves the information separators out; texts of numbers are trimmed by it.

`trimWith` removes the characters of a class at both ends and nothing in between; it is stated
for a class so that both uses share their lemmas.
-/

namespace LintGate.Text

/-- **White space**, as the character database defines the property. -/
def isSpace (c : Char) : Bool :=
  let n := c.toNat
  (9 ≤ n && n ≤ 13) || n == 0x20 || n == 0x85 || n == 0xa0 || n == 0x1680 ||
    (0x2000 ≤ n && n ≤ 0x200a) || n == 0x2028 || n == 0x2029 || n == 0x202f || n == 0x205f ||
    n == 0x3000

/-- **Blank characters**: white space and the four information separators. -/
def isBlank (c : Char) : Bool :=
  isSpace c || (0x1c ≤ c.toNat && c.toNat ≤ 0x1f)

/-- The characters of a class removed at both ends. -/
def trimWith (p : Char → Bool) (s : List Char) : List Char :=
  ((s.dropWhile p).reverse.dropWhile p).reverse

/-- **A text without the blanks at its ends.** -/
def trim (s : String) : String :=
  String.ofList (trimWith isBlank s.toList)

/-- **A blank text** has nothing but blanks in it. -/
def isBlankText (s : String) : Bool := s.toList.all isBlank

/-- The trimmed text, if there is one left. -/
def trimmed? (s : String) : Option String :=
  if isBlankText s then none else some (trim s)

@[simp] theorem trimWith_nil (p : Char → Bool) : trimWith p [] = [] := rfl

/-- Trimming leaves a text alone that neither begins nor ends with a character of the class. -/
theorem trimWith_of_ends {p : Char → Bool} {s : List Char}
    (first : ∀ c ∈ s.head?, p c = false) (last : ∀ c ∈ s.getLast?, p c = false) :
    trimWith p s = s := by
  have dropHead : ∀ t : List Char, (∀ c ∈ t.head?, p c = false) → t.dropWhile p = t := by
    intro t ht
    cases t with
    | nil => rfl
    | cons c r => simp [List.dropWhile, ht c (by simp)]
  rw [trimWith, dropHead s first, dropHead s.reverse (by simpa using last), List.reverse_reverse]

/-- **What surrounds a text at its ends is trimmed**, and nothing of the text. -/
theorem trimWith_surrounded {p : Char → Bool} {before s behind : List Char} (hs : s ≠ [])
    (hbefore : ∀ c ∈ before, p c = true) (hbehind : ∀ c ∈ behind, p c = true)
    (first : ∀ c ∈ s.head?, p c = false) (last : ∀ c ∈ s.getLast?, p c = false) :
    trimWith p (before ++ (s ++ behind)) = s := by
  have dropSurrounding : ∀ {l t r : List Char}, t ≠ [] → (∀ c ∈ l, p c = true) →
      (∀ c ∈ t.head?, p c = false) → (l ++ (t ++ r)).dropWhile p = t ++ r := by
    intro l t r ht hl hhead
    rw [List.dropWhile_append_of_pos hl]
    obtain ⟨c, t, rfl⟩ := List.exists_cons_of_ne_nil ht
    exact List.dropWhile_cons_of_neg (by simpa using hhead c rfl)
  have hreverse := dropSurrounding (r := []) (List.reverse_ne_nil_iff.2 hs)
    (fun c hc => hbehind c (List.mem_reverse.1 hc)) (by simpa using last)
  rw [trimWith, dropSurrounding hs hbefore first, List.reverse_append]
  rw [List.append_nil] at hreverse
  rw [hreverse, List.reverse_reverse]

end LintGate.Text
