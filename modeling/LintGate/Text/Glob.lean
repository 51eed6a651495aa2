/-!
# Glob patterns

A pattern is read into *items*: a star stands for any run of characters (slashes included), a
question mark for any one character, a bracketed class for one character of the class, and
everything else for itself. A bracket that is never closed stands for itself too.

Inside brackets a leading exclamation mark takes the complement, and a closing bracket right
behind the opening one (or behind that mark) is a member. A hyphen between two members spans the
range of characters between them; a range that runs backwards is empty and drops both of its
ends. Whether a mark leads is decided after that, so a mark that was behind such a range may come
to lead. A class that is left with no members matches nothing, and its complement everything.

`accepts` says when items match a text. `Glob.matches` is the whole test; it comes to the same
(`matches_eq_accepts`) without trying the runs of the stars one inside the other.
-/

namespace LintGate.Text.Glob

/-- One position of a pattern. -/
inductive Item
  /-- Any run of characters. -/
  | star
  /-- Any one character. -/
  | any
  /-- The character itself. -/
  | one (c : Char)
  /-- A character of the class, or outside of it when the class is negated. -/
  | among (negated : Bool) (singles : List Char) (ranges : List (Char × Char))
  deriving DecidableEq, Repr

/-- The class is closed somewhere in the text behind its opening bracket. -/
def closes (s : List Char) : Bool :=
  let s := match s with | '!' :: r => r | _ => s
  let s := match s with | ']' :: r => r | _ => s
  s.contains ']'

/-- A closing bracket behind these members ends the class. -/
def ends (members : List Char) : Bool := members != [] && members != ['!']

/-- The members of a class cut at the hyphens that span ranges: the hyphens with at least `least`
members before them since the last cut. A hyphen at the very end is a member. -/
def cutRanges (least : Nat) (before : List Char) : List Char → List (List Char)
  | [] => [before.reverse]
  | ['-'] => [('-' :: before).reverse]
  | c :: r =>
    if c = '-' ∧ least ≤ before.length then before.reverse :: cutRanges 2 [] r
    else cutRanges least (c :: before) r

/-- Neighbouring chunks are joined, without the two ends, where the range between them runs
backwards. -/
def joinBackward (chunk : List Char) (rest : List (List Char)) : List (List Char) :=
  match rest with
  | [] => [chunk]
  | next :: more =>
    match chunk.getLast?, next.head? with
    | some lo, some hi =>
      if hi < lo then (chunk.dropLast ++ next.tail) :: more else chunk :: rest
    | _, _ => chunk :: rest

/-- The ranges between neighbouring chunks. -/
def rangesBetween : List (List Char) → List (Char × Char)
  | chunk :: next :: more =>
    match chunk.getLast?, next.head? with
    | some lo, some hi => (lo, hi) :: rangesBetween (next :: more)
    | _, _ => rangesBetween (next :: more)
  | _ => []

/-- **The class with these members** between its brackets. Where nothing is left of a first chunk
but the mark of the complement, no range begins there, and the hyphen behind it is a member. -/
def classOf (members : List Char) : Item :=
  let least := if members.head? = some '!' then 2 else 1
  match (cutRanges least [] members).foldr joinBackward [] with
  | ['!'] :: next :: more =>
    .among true ('-' :: (next :: more).flatten) (rangesBetween (next :: more))
  | ('!' :: first) :: more => .among true (first :: more).flatten (rangesBetween (first :: more))
  | chunks => .among false chunks.flatten (rangesBetween chunks)

/-- Where the reading of a pattern stands. -/
inductive Mode
  /-- Outside of brackets. -/
  | outside
  /-- Inside a class, with the members read so far, the last one first. -/
  | inside (members : List Char)

/-- The items of a pattern from some place on. -/
def itemsFrom : Mode → List Char → List Item
  | _, [] => []
  | .outside, c :: r =>
    if c = '*' then .star :: itemsFrom .outside r
    else if c = '?' then .any :: itemsFrom .outside r
    else if c = '[' ∧ closes r then itemsFrom (.inside []) r
    else .one c :: itemsFrom .outside r
  | .inside members, c :: r =>
    if c = ']' ∧ ends members.reverse then classOf members.reverse :: itemsFrom .outside r
    else itemsFrom (.inside (c :: members)) r

/-- **The items of a pattern.** -/
def items (pattern : List Char) : List Item := itemsFrom .outside pattern

/-- The character may stand where the item stands. -/
def Item.admits : Item → Char → Bool
  | .star, _ => true
  | .any, _ => true
  | .one d, c => c == d
  | .among negated singles ranges, c =>
    (singles.contains c || ranges.any fun r => r.1 ≤ c && c ≤ r.2) != negated

/-- Some ending of the text, the whole and the empty one included, passes the test. -/
def someEnding (test : List Char → Bool) : List Char → Bool
  | [] => test []
  | c :: r => test (c :: r) || someEnding test r

/-- **The items match the whole text.** -/
def accepts : List Item → List Char → Bool
  | [], s => s.isEmpty
  | .star :: is, s => someEnding (accepts is) s
  | i :: is, s =>
    match s with
    | [] => false
    | c :: r => i.admits c && accepts is r

/-! ## Matching by rows

Trying every run of every star one inside the other takes too long when there are many stars. A
*row* tells of each ending of the text, from the whole to the empty one, whether some items match
it; the row of one more item in front is made of that row alone. -/

/-- The endings of a text, from the whole to the empty one. -/
def endings : List Char → List (List Char)
  | [] => [[]]
  | c :: r => (c :: r) :: endings r

/-- The row of a star in front of the items of a row. -/
def starRow : List Bool → List Bool
  | [] => []
  | b :: bs =>
    let rest := starRow bs
    (b || rest.headD false) :: rest

/-- The row of an item for one character in front of the items of a row. -/
def itemRow (i : Item) : List Char → List Bool → List Bool
  | c :: r, _ :: bs => (i.admits c && bs.headD false) :: itemRow i r bs
  | _, _ => [false]

/-- **The row of some items.** -/
def row (s : List Char) : List Item → List Bool
  | [] => (endings s).map List.isEmpty
  | .star :: is => starRow (row s is)
  | i :: is => itemRow i s (row s is)

/-- **The pattern matches the text.** -/
def «matches» (pattern text : String) : Bool :=
  (row text.toList (items pattern.toList)).headD false

/-- A text is the first of its endings. -/
theorem headD_map_endings (f : List Char → Bool) (s : List Char) :
    ((endings s).map f).headD false = f s := by
  cases s <;> rfl

theorem starRow_map_endings (f : List Char → Bool) (s : List Char) :
    starRow ((endings s).map f) = (endings s).map (someEnding f) := by
  induction s with
  | nil => simp [endings, starRow, someEnding]
  | cons c r ih => simp only [endings, List.map_cons, starRow, ih, headD_map_endings, someEnding]

theorem itemRow_map_endings {i : Item} (h : i ≠ .star) (is : List Item) (s : List Char) :
    itemRow i s ((endings s).map (accepts is)) = (endings s).map (accepts (i :: is)) := by
  have cons : ∀ c r, accepts (i :: is) (c :: r) = (i.admits c && accepts is r) := by
    intro c r
    cases i <;> simp_all [accepts]
  have nil : accepts (i :: is) [] = false := by
    cases i <;> simp_all [accepts]
  induction s with
  | nil => simp [endings, itemRow, nil]
  | cons c r ih => simp only [endings, List.map_cons, itemRow, ih, headD_map_endings, cons]

/-- **A row tells of each ending whether the items match it.** -/
theorem row_eq_map_accepts (s : List Char) (is : List Item) :
    row s is = (endings s).map (accepts is) := by
  induction is with
  | nil =>
    have h : accepts [] = List.isEmpty := by
      funext t
      simp [accepts]
    rw [row, h]
  | cons i is ih =>
    cases i with
    | star =>
      have h : accepts (.star :: is) = someEnding (accepts is) := by
        funext t
        simp [accepts]
      rw [row, ih, starRow_map_endings, h]
    | any | one | among => rw [row, ih, itemRow_map_endings] <;> simp

/-- **A pattern matches the texts that its items accept.** -/
theorem matches_eq_accepts (pattern text : String) :
    «matches» pattern text = accepts (items pattern.toList) text.toList := by
  rw [«matches», row_eq_map_accepts, headD_map_endings]

/-- A test on the endings of a text looks for one that is the rest behind some beginning. -/
theorem someEnding_iff {test : List Char → Bool} {s : List Char} :
    someEnding test s = true ↔ ∃ run rest, s = run ++ rest ∧ test rest = true := by
  induction s with
  | nil =>
    constructor
    · exact fun h => ⟨[], [], rfl, h⟩
    · rintro ⟨run, rest, h, ht⟩
      simp only [List.nil_eq, List.append_eq_nil_iff] at h
      simpa [someEnding, h.2] using ht
  | cons c r ih =>
    simp only [someEnding, Bool.or_eq_true, ih]
    constructor
    · rintro (h | ⟨run, rest, rfl, h⟩)
      · exact ⟨[], _, rfl, h⟩
      · exact ⟨c :: run, rest, rfl, h⟩
    · rintro ⟨run, rest, h, ht⟩
      cases run with
      | nil => exact .inl (by simpa using h ▸ ht)
      | cons d run =>
        simp only [List.cons_append, List.cons.injEq] at h
        exact .inr ⟨run, rest, h.2, ht⟩

end LintGate.Text.Glob
