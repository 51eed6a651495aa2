/-!
# Tables that keep their order

A table lists its entries in the order in which their keys were first put in. Putting a key in
again changes its value and leaves its place alone: the members of a JSON object, the files of a
report and the lines of a provenance map are all read by this rule.
-/

namespace LintGate

/-- **A table**: keys with their values, in the order of first entry. -/
abbrev Table (κ α : Type) := List (κ × α)

namespace Table

variable {κ α : Type} [DecidableEq κ]

/-- The value of a key. -/
def get? (t : Table κ α) (k : κ) : Option α :=
  match t with
  | [] => none
  | (j, v) :: r => if j = k then some v else get? r k

/-- **A key put in**: a new key goes to the end, a known one keeps its place. -/
def put (t : Table κ α) (k : κ) (v : α) : Table κ α :=
  match t with
  | [] => [(k, v)]
  | (j, w) :: r => if j = k then (j, v) :: r else (j, w) :: put r k v

/-- The table that entries make, put in one after the other. -/
def ofEntries (es : List (κ × α)) : Table κ α :=
  es.foldl (fun t e => t.put e.1 e.2) []

omit [DecidableEq κ] in
/-- The keys, in the order of first entry. -/
def keys (t : Table κ α) : List κ := t.map Prod.fst

/-- A key that was put in has its new value, and every other key the value it had. -/
theorem get?_put (t : Table κ α) (k j : κ) (v : α) :
    (t.put k v).get? j = if k = j then some v else t.get? j := by
  induction t with
  | nil => simp [put, get?]
  | cons e r ih =>
    obtain ⟨i, w⟩ := e
    by_cases h : i = k
    · subst h
      by_cases hj : i = j <;> simp [put, get?, hj]
    · by_cases hj : i = j
      · subst hj
        simp [put, get?, h, Ne.symm h]
      · simp [put, get?, h, hj, ih]

/-- Putting a key in adds it behind the others unless it is there already. -/
theorem keys_put (t : Table κ α) (k : κ) (v : α) :
    (t.put k v).keys = if k ∈ t.keys then t.keys else t.keys ++ [k] := by
  induction t with
  | nil => simp [put, keys]
  | cons e r ih =>
    obtain ⟨i, w⟩ := e
    by_cases h : i = k
    · subst h
      simp [put, keys]
    · have hk : k ≠ i := Ne.symm h
      simp only [keys] at ih
      by_cases hr : k ∈ r.map Prod.fst <;> simp_all [put, keys]

end Table

end LintGate
