import Mathlib.Data.List.Forall2
import LintGate.Schema

/-!
# What a reader has accepted

A reader returns a value or problems. The lemmas here say of each reader what must hold of a value
for it to return a given result, so that a record's reader can be taken apart field by field: a
required member is there and is read, an optional one is absent or is read, and of a list or a
table every entry is read (`listOf_eq_ok_iff_forall₂`, `tableOf_eq_ok_iff_forall₂`). Problems and
their paths play no part in this.
-/

namespace LintGate.Schema

open Checked

variable {α β : Type}

@[simp] theorem Checked.under_eq_ok_iff {s : Step} {c : Checked α} {a : α} :
    c.under s = .ok a ↔ c = .ok a := by
  cases c <;> simp [under]

/-- **A required member** is there and is read. -/
theorem required_eq_ok_iff {ms : Table String Json} {key : String} {reader : Json → Checked α}
    {a : α} :
    required ms key reader = .ok a ↔ ∃ v, ms.get? key = some v ∧ reader v = .ok a := by
  unfold required
  cases ms.get? key <;> simp [fail]

/-- **An optional member** is absent, or it is there and is read. -/
theorem optional_eq_ok_iff {ms : Table String Json} {key : String} {fallback : α}
    {reader : Json → Checked α} {a : α} :
    optional ms key fallback reader = .ok a ↔
      ms.get? key = none ∧ a = fallback ∨ ∃ v, ms.get? key = some v ∧ reader v = .ok a := by
  unfold optional
  cases ms.get? key with
  | none => simp [eq_comm]
  | some v => simp

/-- A record is made of the members of an object. -/
theorem record_eq_ok_iff {fields : Table String Json → Checked α} {j : Json} {a : α} :
    record fields j = .ok a ↔ ∃ ms, j = .obj ms ∧ fields ms = .ok a := by
  cases j <;> simp [record, fail]

theorem text_eq_ok_iff {j : Json} {s : String} : text j = .ok s ↔ j = .str s := by
  cases j <;> simp [text, fail]

/-- **A bounded number** is an integer that keeps the bound. -/
theorem natural_eq_ok_iff {least : Nat} {short : Defect} {j : Json} {n : Nat} :
    natural least short j = .ok n ↔ integer j = .ok (n : Int) ∧ least ≤ n := by
  unfold natural
  cases integer j with
  | error ps => simp
  | ok i =>
    by_cases h : (least : Int) ≤ i
    · simp only [if_pos h, Except.ok.injEq]
      omega
    · simp only [if_neg h, fail, reduceCtorEq, Except.ok.injEq, false_iff, not_and]
      omega

/-- What is made one by one of what is made one by one. -/
theorem exists_forall₂_forall₂_iff {γ : Type} {R : α → β → Prop} {S : β → γ → Prop}
    {as : List α} {cs : List γ} :
    (∃ bs, List.Forall₂ R as bs ∧ List.Forall₂ S bs cs) ↔
      List.Forall₂ (fun a c => ∃ b, R a b ∧ S b c) as cs := by
  constructor
  · rintro ⟨bs, hR, hS⟩
    induction hR generalizing cs with
    | nil => rwa [List.forall₂_nil_left_iff] at hS ⊢
    | cons hab _ ih =>
      obtain ⟨c, cs, hbc, hrest, rfl⟩ := List.forall₂_cons_left_iff.1 hS
      exact .cons ⟨_, hab, hbc⟩ (ih hrest)
  · intro h
    induction h with
    | nil => exact ⟨[], .nil, .nil⟩
    | cons hac _ ih =>
      obtain ⟨b, hR, hS⟩ := hac
      obtain ⟨bs, hRs, hSs⟩ := ih
      exact ⟨b :: bs, .cons hR hRs, .cons hS hSs⟩

/-- A list is worked off when each of its elements is. -/
theorem mapM_eq_ok_iff_forall₂ {ε : Type} {f : α → Except ε β} {as : List α} {bs : List β} :
    as.mapM f = .ok bs ↔ List.Forall₂ (fun a b => f a = .ok b) as bs := by
  induction as generalizing bs with
  | nil => cases bs <;> simp [pure, Except.pure]
  | cons a as ih =>
    rw [List.mapM_cons]
    cases ha : f a with
    | error e => cases bs <;> simp [bind, Except.bind, ha]
    | ok b =>
      cases has : as.mapM f with
      | error e => cases bs <;> simp [bind, Except.bind, ← ih, ha, has]
      | ok bs' => cases bs <;> simp [bind, Except.bind, pure, Except.pure, ← ih, ha, has]

/-- A list is given up at an element that fails. -/
theorem exists_of_mapM_eq_error {ε : Type} {f : α → Except ε β} {as : List α} {e : ε}
    (h : as.mapM f = .error e) : ∃ a ∈ as, f a = .error e := by
  induction as with
  | nil => cases h
  | cons a as ih =>
    rw [List.mapM_cons] at h
    cases ha : f a with
    | error e' =>
      rw [ha] at h
      cases h
      exact ⟨a, List.mem_cons_self, ha⟩
    | ok b =>
      cases has : as.mapM f with
      | error e' =>
        rw [ha, has] at h
        cases h
        obtain ⟨a', hmem, ha'⟩ := ih has
        exact ⟨a', List.mem_cons_of_mem a hmem, ha'⟩
      | ok bs =>
        rw [ha, has] at h
        cases h

/-- Items that are each read at a position of their own are read one by one. -/
theorem mapIdx_under_eq_map_ok_iff {item : Json → Checked α} {step : Nat → Step} {vs : List Json}
    {as : List α} :
    (vs.mapIdx fun i v => (item v).under (step i)) = as.map .ok ↔
      List.Forall₂ (fun v a => item v = .ok a) vs as := by
  induction vs generalizing step as with
  | nil => cases as <;> simp
  | cons v vs ih =>
    cases as with
    | nil => simp
    | cons a as => simp [List.mapIdx_cons, ih]

/-- **A list** is an array of which every item is read. -/
theorem listOf_eq_ok_iff_forall₂ {wrong : Defect} {item : Json → Checked α} {j : Json}
    {as : List α} :
    listOf wrong item j = .ok as ↔
      ∃ vs, j = .arr vs ∧ List.Forall₂ (fun v a => item v = .ok a) vs as := by
  cases j with
  | arr vs => simp [listOf_eq_ok_iff, mapIdx_under_eq_map_ok_iff]
  | _ => simp [listOf, fail]

/-- **A table** is an object of which every value is read. -/
theorem tableOf_eq_ok_iff_forall₂ {entry : String → Json → Checked α} {j : Json}
    {t : Table String α} :
    tableOf entry j = .ok t ↔
      ∃ ms, j = .obj ms ∧
        List.Forall₂ (fun m e => e.1 = m.1 ∧ entry m.1 m.2 = .ok e.2) ms t := by
  cases j with
  | obj ms =>
    have hmap : ∀ {c : Checked α} {k : String} {e : String × α},
        (c.under (.key k)).map (fun a => (k, a)) = .ok e ↔ e.1 = k ∧ c = .ok e.2 := by
      rintro c k ⟨j, a⟩
      cases c <;> simp [under, Except.map, eq_comm]
    simp only [tableOf, all_eq_ok_iff, Json.obj.injEq, exists_eq_left']
    rw [← List.forall₂_eq_eq_eq, List.forall₂_map_left_iff, List.forall₂_map_right_iff]
    simp only [hmap]
  | _ => simp [tableOf, fail]

end LintGate.Schema
