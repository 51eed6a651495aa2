import LintGate.Proofs.Json.Reading

/-!
# Where the reader stops

A production that fails passes on the stop of one of its parts, and the reader has come to that part
through text that it has accepted: blanks, an open bracket, a key, and items or members that are
complete. The three inversion lemmas say so, one for each production. Each lists all the ways in
which one step can fail, flaws of the step itself among them, so that what is to be shown of some
kind of stop is shown by cases on them and by induction on the depth, without looking into a
production again.
-/

namespace LintGate.Json

open LintGate.Text

/-! ## Complete parts -/

/-- **An item with its comma.** -/
structure ItemBefore where
  /-- The item. -/
  value : Spelling
  /-- What stands between the item and the comma, -/
  before : Gap
  /-- and what stands behind the comma. -/
  behind : Gap

/-- The item and its comma as they are written. -/
def ItemBefore.chars (i : ItemBefore) : List Char :=
  i.value.text ++ (i.before.chars ++ ',' :: i.behind.chars)

/-- **A member with its comma.** -/
structure MemberBefore where
  /-- The key with its colon. -/
  key : Key
  /-- The value with its comma. -/
  item : ItemBefore

/-- The member and its comma as they are written. -/
def MemberBefore.chars (m : MemberBefore) : List Char := m.key.chars ++ m.item.chars

/-- What is read as a value with a comma behind it is an item with its comma. -/
theorem exists_itemBefore {depth room : Nat} {s r t : List Char} {v : Json}
    (hv : value depth room s = .ok (v, r)) (hr : skip r = ',' :: t) :
    ∃ i : ItemBefore, s = i.chars ++ skip t := by
  obtain ⟨sp, rfl, -, -⟩ := (all_spelled depth).1 hv
  obtain ⟨before, hbefore⟩ := exists_gap r
  obtain ⟨behind, hbehind⟩ := exists_gap t
  refine ⟨⟨sp, before, behind⟩, ?_⟩
  conv => lhs; rw [hbefore, hr, hbehind]
  simp [ItemBefore.chars]

section Reading

variable {depth room : Nat} {s : List Char}

/-- **An item with its comma is read**, and then the others are, unless a bracket of it finds no
room. -/
theorem items_itemBefore (i : ItemBefore) (hs : Solid s) (hdepth : i.chars.length ≤ depth) :
    (∃ b, items (depth + 1) room (i.chars ++ s) = .error (.nesting b)) ∨
      items (depth + 1) room (i.chars ++ s) =
        (items depth room s).map fun (vs, rest) => (i.value.value :: vs, rest) := by
  simp only [ItemBefore.chars, List.length_append, List.length_cons] at hdepth
  have hv := i.value.value_text depth room (by omega)
    (bounded_gap i.before (bounded_cons (c := ',') (by simp) (i.behind.chars ++ s)))
  have hskip := skip_gap i.before (solid_cons (c := ',') (s := i.behind.chars ++ s) (by decide))
  simp only [ItemBefore.chars, List.append_assoc, List.cons_append]
  cases hb : i.value.tooDeep? room with
  | some b =>
    rw [hb] at hv
    exact .inl ⟨b, items_of_error hv⟩
  | none =>
    rw [hb] at hv
    exact .inr (by rw [items_of_comma hv hskip, skip_gap i.behind hs])

/-- **A member with its comma is read**, and then the others are, unless a bracket of it finds no
room. -/
theorem members_memberBefore (m : MemberBefore) (hs : Solid s) (hdepth : m.chars.length ≤ depth) :
    (∃ b, members (depth + 1) room (m.chars ++ s) = .error (.nesting b)) ∨
      members (depth + 1) room (m.chars ++ s) =
        (members depth room s).map
          fun (ms, rest) => ((m.key.name, m.item.value.value) :: ms, rest) := by
  obtain ⟨key, i⟩ := m
  simp only [MemberBefore.chars, ItemBefore.chars, List.length_append, List.length_cons] at hdepth
  obtain ⟨r, q, u, hk, hstring, hcolon, hu⟩ :=
    string_key key (i.value.text ++ (i.before.chars ++ ',' :: (i.behind.chars ++ s)))
  have hv := i.value.value_text depth room (by omega)
    (bounded_gap i.before (bounded_cons (c := ',') (by simp) (i.behind.chars ++ s)))
  have hskip := skip_gap i.before (solid_cons (c := ',') (s := i.behind.chars ++ s) (by decide))
  -- the value is read behind the blanks that follow the colon
  rw [← hu (i.value.solid _)] at hv
  simp only [MemberBefore.chars, ItemBefore.chars, List.append_assoc, List.cons_append]
  rw [hk]
  cases hb : i.value.tooDeep? room with
  | some b =>
    rw [hb] at hv
    exact .inl ⟨b, members_of_error hstring hcolon hv⟩
  | none =>
    rw [hb] at hv
    exact .inr (by rw [members_of_comma hstring hcolon hv hskip, skip_gap i.behind hs])

end Reading

/-! ## Inversion -/

/-- **How a value stops the reader.** -/
inductive ValueStops (depth : Nat) (stop : Stop) : Nat → List Char → Prop
  /-- It has no parts. -/
  | scalar {room : Nat} {s : List Char} (fails : scalar s = .error stop) :
      ValueStops depth stop room s
  /-- It is a string with a flaw. -/
  | string {room : Nat} {s : List Char} (f : Flaw) (place : List Char)
      (eq_flaw : stop = .flaw f place) : ValueStops depth stop room s
  /-- There is no room for an array, -/
  | noArray (r : List Char) (eq_nesting : stop = .nesting .array) :
      ValueStops depth stop 0 ('[' :: r)
  /-- or for an object. -/
  | noObject (r : List Char) (eq_nesting : stop = .nesting .object) :
      ValueStops depth stop 0 ('\x7b' :: r)
  /-- It is an array, and the reader stops among its items. -/
  | items {room : Nat} (gap : Gap) {t : List Char} (fails : items depth room t = .error stop) :
      ValueStops depth stop (room + 1) ('[' :: (gap.chars ++ t))
  /-- It is an object, and the reader stops among its members. -/
  | members {room : Nat} (gap : Gap) {t : List Char} (fails : members depth room t = .error stop) :
      ValueStops depth stop (room + 1) ('\x7b' :: (gap.chars ++ t))

/-- **How items stop the reader.** -/
inductive ItemsStop (depth : Nat) (stop : Stop) (room : Nat) : List Char → Prop
  /-- Behind an item stands neither a comma nor the closing bracket. -/
  | flaw {s : List Char} (place : List Char) (eq_flaw : stop = .flaw .comma place) :
      ItemsStop depth stop room s
  /-- The reader stops in the first item. -/
  | first {s : List Char} (fails : value depth room s = .error stop) : ItemsStop depth stop room s
  /-- It stops behind the first item. -/
  | behind (i : ItemBefore) {t : List Char} (fails : items depth room t = .error stop) :
      ItemsStop depth stop room (i.chars ++ t)

/-- **How members stop the reader.** -/
inductive MembersStop (depth : Nat) (stop : Stop) (room : Nat) : List Char → Prop
  /-- Something is wrong with a key, or with what follows a member. -/
  | flaw {s : List Char} (f : Flaw) (place : List Char) (eq_flaw : stop = .flaw f place) :
      MembersStop depth stop room s
  /-- The reader stops in the value of the first member. -/
  | first (key : Key) {t : List Char} (fails : value depth room t = .error stop) :
      MembersStop depth stop room (key.chars ++ t)
  /-- It stops behind the first member. -/
  | behind (m : MemberBefore) {t : List Char} (fails : members depth room t = .error stop) :
      MembersStop depth stop room (m.chars ++ t)

variable {depth room : Nat} {s : List Char} {stop : Stop}

/-- **Inversion for values.** -/
theorem valueStops_of_error (h : value (depth + 1) room s = .error stop) :
    ValueStops depth stop room s := by
  by_cases hscalar : ∀ c ∈ s.head?, Scalar c
  · rw [value_scalar hscalar] at h
    exact .scalar h
  obtain ⟨r, rfl | rfl | rfl⟩ := exists_of_not_scalar hscalar
  · rw [value_quote] at h
    obtain ⟨f, place, hf⟩ := exists_flaw_of_string (eq_error_of_map_eq_error h)
    exact .string f place hf
  · obtain ⟨gap, hgap⟩ := exists_gap r
    cases room with
    | zero => exact .noObject r (Except.error.inj h).symm
    | succ room =>
      rw [value_brace] at h
      split at h
      next => cases h
      next =>
        rw [hgap]
        exact .members gap (eq_error_of_map_eq_error h)
  · obtain ⟨gap, hgap⟩ := exists_gap r
    cases room with
    | zero => exact .noArray r (Except.error.inj h).symm
    | succ room =>
      rw [value_bracket] at h
      split at h
      next => cases h
      next =>
        rw [hgap]
        exact .items gap (eq_error_of_map_eq_error h)

/-- **Inversion for items.** -/
theorem itemsStop_of_error (h : items (depth + 1) room s = .error stop) :
    ItemsStop depth stop room s := by
  cases hv : value depth room s with
  | error stop' =>
    rw [items_of_error hv] at h
    cases h
    exact .first hv
  | ok x =>
    obtain ⟨v, r⟩ := x
    rcases close_or_comma ']' r with ⟨t, hr⟩ | ⟨t, hr⟩ | ⟨hclose, hcomma⟩
    · rw [items_of_close hv hr] at h
      cases h
    · obtain ⟨i, rfl⟩ := exists_itemBefore hv hr
      rw [items_of_comma hv hr] at h
      exact .behind i (eq_error_of_map_eq_error h)
    · rw [items_of_neither hv hclose hcomma] at h
      exact .flaw _ (Except.error.inj h).symm

/-- **Inversion for members.** -/
theorem membersStop_of_error (h : members (depth + 1) room s = .error stop) :
    MembersStop depth stop room s := by
  rcases members_key depth room s with ⟨r, k, q, u, rfl, hk, hq⟩ | ⟨f, place, herror⟩
  · obtain ⟨key, hkey, -⟩ := exists_key hk hq
    cases hv : value depth room (skip u) with
    | error stop' =>
      rw [members_of_error hk hq hv] at h
      cases h
      rw [hkey]
      exact .first key hv
    | ok x =>
      obtain ⟨v, r⟩ := x
      rcases close_or_comma '\x7d' r with ⟨t, hr⟩ | ⟨t, hr⟩ | ⟨hclose, hcomma⟩
      · rw [members_of_close hk hq hv hr] at h
        cases h
      · obtain ⟨i, hi⟩ := exists_itemBefore hv hr
        rw [members_of_comma hk hq hv hr] at h
        rw [hkey, hi, ← List.append_assoc]
        exact .behind ⟨key, i⟩ (eq_error_of_map_eq_error h)
      · rw [members_of_neither hk hq hv hclose hcomma] at h
        exact .flaw _ _ (Except.error.inj h).symm
  · rw [herror] at h
    exact .flaw f place (Except.error.inj h).symm

/-- **A document that is refused without a flaw** is refused for its value. -/
theorem value_of_document_error {s : List Char} (h : document room s = .error stop)
    (hflaw : ∀ f rest, stop ≠ .flaw f rest) :
    value (2 * s.length + 2) room (skip s) = .error stop := by
  unfold document at h
  split at h
  next => exact absurd (Except.error.inj h).symm (hflaw _ _)
  next =>
    split at h
    next stop' hv => exact hv.trans (congrArg Except.error (Except.error.inj h))
    next =>
      split at h
      next => cases h
      next => exact absurd (Except.error.inj h).symm (hflaw _ _)

end LintGate.Json
