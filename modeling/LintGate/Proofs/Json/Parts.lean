import LintGate.Proofs.Json.Spelling
import LintGate.Proofs.Table

/-!
# The parts of a spelled value

What a value holds can be read off any spelling of it. The items of an array are the values of the
items that are written. Of the members of an object, the last one with a key gives the key its
value, and the keys stand in the order in which each is first written (`value_eq_obj_iff`,
`get?_of_value_eq_obj`, `keys_of_value_eq_obj`).
-/

namespace LintGate.Json

/-- A word stands for no array and no object. -/
theorem Word.value_ne (w : Word) : (∀ vs, w.value ≠ .arr vs) ∧ ∀ ms, w.value ≠ .obj ms := by
  have hwords : ∀ e ∈ words, (∀ vs, e.2 ≠ .arr vs) ∧ ∀ ms, e.2 ≠ .obj ms := by simp [words]
  exact hwords _ w.mem_words

/-- A number is no array and no object. -/
theorem Numeral.value_ne (n : Numeral) : (∀ vs, n.value ≠ .arr vs) ∧ ∀ ms, n.value ≠ .obj ms := by
  unfold Numeral.value
  split <;> simp

namespace Spelling

/-- **The member with a key that counts**; none if there is no such member or it is no object. -/
def member? (sp : Spelling) (key : String) : Option Spelling :=
  sp.entries?.bind fun es => lastMember? es key

variable {sp : Spelling}

/-- **An array has the values of its items.** -/
theorem value_eq_arr_iff {vs : List Json} :
    sp.value = .arr vs ↔ ∃ items, sp.items? = some items ∧ vs = items.map value := by
  cases sp with
  | word w => simpa [value, items?] using w.value_ne.1 vs
  | number n => simpa [value, items?] using n.value_ne.1 vs
  | array gap items => simp [value, items?, items.values_eq_map, eq_comm]
  | object gap members => simp [value, items?, ofMembers]
  | _ => simp [value, items?, eq_comm]

/-- **An object is the table of its members** as they are written. -/
theorem value_eq_obj_iff {t : Table String Json} :
    sp.value = .obj t ↔
      ∃ es, sp.entries? = some es ∧ t = Table.ofEntries (es.map fun e => (e.1, e.2.value)) := by
  cases sp with
  | word w => simpa [value, entries?] using w.value_ne.2 t
  | number n => simpa [value, entries?] using n.value_ne.2 t
  | object gap members => simp [value, entries?, ofMembers, members.values_eq_map, eq_comm]
  | emptyObject gap => simp [value, entries?, Table.ofEntries, eq_comm]
  | _ => simp [value, entries?]

/-- A function of the values of some entries is found under the same keys. -/
theorem lookup_map_value (es : List (String × Spelling)) (key : String) :
    (es.map fun e => (e.1, e.2.value)).lookup key = (es.lookup key).map value := by
  induction es with
  | nil => rfl
  | cons e es ih =>
    rw [List.map_cons, List.lookup_cons, ih, List.lookup_cons]
    cases key == e.1 <;> rfl

/-- **The value of a key is that of the last member with the key.** -/
theorem get?_of_value_eq_obj {t : Table String Json} (h : sp.value = .obj t) (key : String) :
    t.get? key = (sp.member? key).map value := by
  obtain ⟨es, hes, rfl⟩ := value_eq_obj_iff.1 h
  rw [Table.get?_ofEntries, ← List.map_reverse, lookup_map_value, member?, hes]
  rfl

/-- The members of a value are those of any spelling of it. -/
theorem member?_value (sp : Spelling) (key : String) :
    sp.value.member? key = (sp.member? key).map value := by
  cases hes : sp.entries? with
  | some es =>
    have ht := value_eq_obj_iff.2 ⟨es, hes, rfl⟩
    rw [ht]
    exact get?_of_value_eq_obj ht key
  | none =>
    have hno : ∀ t, sp.value ≠ .obj t := by
      intro t ht
      obtain ⟨es, hes', -⟩ := value_eq_obj_iff.1 ht
      rw [hes] at hes'
      cases hes'
    have hmember : sp.member? key = none := by rw [member?, hes]; rfl
    rw [hmember]
    cases hv : sp.value with
    | obj t => exact absurd hv (hno t)
    | _ => rfl

/-- **The keys stand in the order in which they are first written.** -/
theorem keys_of_value_eq_obj {t : Table String Json} {es : List (String × Spelling)}
    (h : sp.value = .obj t) (hes : sp.entries? = some es) :
    t.keys = (es.map Prod.fst).eraseDups := by
  obtain ⟨es', hes', rfl⟩ := value_eq_obj_iff.1 h
  obtain rfl : es = es' := Option.some.inj (hes.symm.trans hes')
  rw [Table.keys_ofEntries, List.map_map]
  rfl

/-- The key of a member is written. -/
theorem mem_keys_of_member? {es : List (String × Spelling)} {key : String} {v : Spelling}
    (hes : sp.entries? = some es) (h : sp.member? key = some v) : key ∈ es.map Prod.fst := by
  rw [member?, hes] at h
  obtain ⟨before, after, hreverse, -⟩ := List.lookup_eq_some_iff.1 h
  have hmem : (key, v) ∈ es.reverse := by
    rw [hreverse]
    exact List.mem_append_right _ List.mem_cons_self
  exact List.mem_map_of_mem (List.mem_reverse.1 hmem)

/-- A member can be found in an object only. -/
theorem exists_entries_of_member? {key : String} {v : Spelling} (h : sp.member? key = some v) :
    ∃ es, sp.entries? = some es := by
  obtain ⟨es, hes, -⟩ := Option.bind_eq_some_iff.1 h
  exact ⟨es, hes⟩

end Spelling

end LintGate.Json
