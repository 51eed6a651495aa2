import Mathlib.Data.List.Forall2
import Mathlib.Data.List.Induction
import LintGate.Table

/-!
# Tables made of entries

A table made of entries holds, for each key, the value of the last entry with that key. So two
lists of entries make tables with the same values when they agree on the last entry of each key,
whatever else they hold. Its keys are those of the entries, each of them once and in the order of
first entry (`keys_ofEntries`), and so two tables can be compared key by key
(`forall₂_iff_get?`).
-/

namespace LintGate.Table

variable {κ α : Type} [DecidableEq κ]

/-- One more entry is put in last. -/
theorem ofEntries_concat (es : List (κ × α)) (e : κ × α) :
    ofEntries (es ++ [e]) = (ofEntries es).put e.1 e.2 := by
  simp [ofEntries]

/-- Entries with other keys leave the value of a key alone. -/
theorem get?_ofEntries_append {k : κ} {after : List (κ × α)} (h : ∀ e ∈ after, e.1 ≠ k)
    (before : List (κ × α)) :
    (ofEntries (before ++ after)).get? k = (ofEntries before).get? k := by
  induction after using List.reverseRecOn with
  | nil => rw [List.append_nil]
  | append_singleton after e ih =>
    have hlast : e.1 ≠ k := h e (List.mem_append_right _ List.mem_cons_self)
    rw [← List.append_assoc, ofEntries_concat, get?_put, if_neg hlast]
    exact ih fun e he => h e (List.mem_append_left _ he)

/-- **The last entry of a key gives its value.** -/
theorem get?_ofEntries_of_last {k : κ} {after : List (κ × α)} (h : ∀ e ∈ after, e.1 ≠ k)
    (before : List (κ × α)) (v : α) :
    (ofEntries (before ++ (k, v) :: after)).get? k = some v := by
  rw [List.append_cons, get?_ofEntries_append h, ofEntries_concat, get?_put, if_pos rfl]

/-- A key without entries has no value. -/
theorem get?_ofEntries_eq_none {k : κ} {es : List (κ × α)} (h : ∀ e ∈ es, e.1 ≠ k) :
    (ofEntries es).get? k = none :=
  get?_ofEntries_append h []

/-- The value of a key is found by searching the entries from the last one on. -/
theorem get?_ofEntries (es : List (κ × α)) (k : κ) :
    (ofEntries es).get? k = es.reverse.lookup k := by
  induction es using List.reverseRecOn with
  | nil => rfl
  | append_singleton es e ih =>
    rw [ofEntries_concat, get?_put, List.reverse_append, List.reverse_singleton,
      List.singleton_append, List.lookup_cons, ih]
    by_cases h : e.1 = k
    · simp [h]
    · simp [h, beq_false_of_ne (Ne.symm h)]

/-- **The keys stand in the order in which they were first entered**, each of them once. -/
theorem keys_ofEntries (es : List (κ × α)) :
    (ofEntries es).keys = (es.map Prod.fst).eraseDups := by
  induction es using List.reverseRecOn with
  | nil => rfl
  | append_singleton es e ih =>
    rw [ofEntries_concat, keys_put, ih, List.map_append, List.eraseDups_append]
    by_cases h : e.1 ∈ es.map Prod.fst
    · rw [if_pos (List.mem_eraseDups.2 h)]
      simp [List.removeAll, h]
    · rw [if_neg fun hmem => h (List.mem_eraseDups.1 hmem)]
      simp [List.removeAll, h, List.eraseDups_cons]

/-- Every key of a table made of entries stands in it once. -/
theorem nodup_keys_ofEntries (es : List (κ × α)) : (ofEntries es).keys.Nodup := by
  induction es using List.reverseRecOn with
  | nil => exact List.nodup_nil
  | append_singleton es e ih =>
    rw [ofEntries_concat, keys_put]
    split
    next => exact ih
    next h =>
      refine List.nodup_append.2 ⟨ih, by simp, fun k hk j hj => ?_⟩
      rintro rfl
      exact h (List.mem_singleton.1 hj ▸ hk)

/-- A new key is put in last. -/
theorem put_of_notMem {t : Table κ α} {k : κ} (h : k ∉ t.keys) (v : α) :
    t.put k v = t ++ [(k, v)] := by
  induction t with
  | nil => rfl
  | cons e t ih =>
    obtain ⟨j, w⟩ := e
    obtain ⟨hj, ht⟩ : k ≠ j ∧ k ∉ keys t := by simpa [keys] using h
    rw [put, if_neg (Ne.symm hj), ih ht]
    rfl

/-- Entries with different keys are the table that they make. -/
theorem ofEntries_of_nodup {es : List (κ × α)} (h : (keys es).Nodup) : ofEntries es = es := by
  induction es using List.reverseRecOn with
  | nil => rfl
  | append_singleton es e ih =>
    have hkeys : (keys es).Nodup ∧ e.1 ∉ keys es := by
      simp only [keys, List.map_append, List.map_singleton] at h
      obtain ⟨hes, -, hne⟩ := List.nodup_append.1 h
      exact ⟨hes, fun hmem => hne e.1 hmem e.1 (by simp) rfl⟩
    rw [ofEntries_concat, ih hkeys.1, put_of_notMem hkeys.2]

/-- **Two tables agree entry by entry** when they have the same keys in the same order, and the
values that they give to a key are related. -/
theorem forall₂_iff_get? {β : Type} {R : κ → α → β → Prop} {s : Table κ α} (hs : s.keys.Nodup)
    {t : Table κ β} :
    List.Forall₂ (fun e f => f.1 = e.1 ∧ R e.1 e.2 f.2) s t ↔
      t.keys = s.keys ∧ ∀ f ∈ t, ∃ v, s.get? f.1 = some v ∧ R f.1 v f.2 := by
  induction s generalizing t with
  | nil => cases t <;> simp [keys]
  | cons e s ih =>
    obtain ⟨k, v⟩ := e
    obtain ⟨hk, hs⟩ := List.nodup_cons.1 hs
    cases t with
    | nil => simp [keys]
    | cons f t =>
      obtain ⟨j, w⟩ := f
      -- a key of the rest is not the first one
      have hrest : keys t = keys s → ∀ f ∈ t, get? ((k, v) :: s) f.1 = get? s f.1 := by
        intro hkeys f hf
        have hne : k ≠ f.1 := by
          rintro rfl
          have hmem : f.1 ∈ keys t := List.mem_map_of_mem hf
          rw [hkeys] at hmem
          exact hk hmem
        rw [get?, if_neg hne]
      rw [List.forall₂_cons, ih hs]
      constructor
      · rintro ⟨⟨hj, hR⟩, hkeys, hall⟩
        obtain rfl : j = k := hj
        refine ⟨congrArg (j :: ·) hkeys, List.forall_mem_cons.2 ⟨⟨v, by simp [get?], hR⟩, ?_⟩⟩
        intro f hf
        rw [hrest hkeys f hf]
        exact hall f hf
      · rintro ⟨hkeys, hall⟩
        obtain ⟨rfl, htail⟩ : j = k ∧ keys t = keys s := List.cons.inj hkeys
        obtain ⟨⟨v', hv', hR⟩, hall⟩ := List.forall_mem_cons.1 hall
        obtain rfl : v = v' := by simpa [get?] using hv'
        refine ⟨⟨rfl, hR⟩, htail, fun f hf => ?_⟩
        rw [← hrest htail f hf]
        exact hall f hf

end LintGate.Table

namespace LintGate

/-- A list either has a last element with a property or has none. -/
theorem exists_last_or_forall_not {α : Type} (p : α → Prop) (l : List α) :
    (∃ before x after, l = before ++ x :: after ∧ p x ∧ ∀ y ∈ after, ¬p y) ∨ ∀ x ∈ l, ¬p x := by
  induction l with
  | nil => exact .inr (by simp)
  | cons a l ih =>
    rcases ih with ⟨before, x, after, rfl, hx, hafter⟩ | hnone
    · exact .inl ⟨a :: before, x, after, rfl, hx, hafter⟩
    · by_cases ha : p a
      · exact .inl ⟨[], a, l, rfl, ha, hnone⟩
      · refine .inr fun x hx => ?_
        rcases List.mem_cons.1 hx with rfl | hx
        · exact ha
        · exact hnone x hx

end LintGate
