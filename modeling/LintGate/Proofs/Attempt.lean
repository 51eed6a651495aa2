import LintGate.Attempt

/-!
# Attempts in a row

What two attempts in a row come to is told by the second equation of each: a fault and a command
belong to one of the two. Most attempts of the program run one command and read its answer. Reading
starts nothing, so such an attempt has the commands of its run, and a fault of the run is its own.
-/

namespace LintGate

namespace Attempt

variable {α β : Type} {x : Attempt α}

section Row

variable {next : α → Attempt β}

/-- Of two attempts in a row, one has the fault. -/
theorem error_of_bind {f : Fault} (h : (x >>= next).result = .error f) :
    x.result = .error f ∨ ∃ a, x.result = .ok a ∧ (next a).result = .error f := by
  cases hx : x.result with
  | error g =>
    rw [bind_of_error hx] at h
    obtain rfl : g = f := by simpa using h
    exact .inl rfl
  | ok a =>
    rw [bind_of_ok hx] at h
    exact .inr ⟨a, rfl, h⟩

/-- Of two attempts in a row, one started the command. -/
theorem mem_calls_of_bind {c : Call} (h : c ∈ (x >>= next).calls) :
    c ∈ x.calls ∨ ∃ a, c ∈ (next a).calls := by
  cases hx : x.result with
  | error g =>
    rw [bind_of_error hx] at h
    exact .inl h
  | ok a =>
    rw [bind_of_ok hx] at h
    exact (List.mem_append.mp h).imp id fun hn => ⟨a, hn⟩

end Row

section Reading

variable {read : α → Except Fault β}

/-- Reading an answer starts nothing. -/
theorem calls_bind_ofResult : (x >>= fun a => ofResult (read a)).calls = x.calls := by
  cases h : x.result with
  | ok a =>
    rw [bind_of_ok h]
    exact List.append_nil _
  | error f => rw [bind_of_error h]

/-- There is a result exactly when there is an answer and it is read. -/
theorem result_bind_ofResult_eq_ok_iff {b : β} :
    (x >>= fun a => ofResult (read a)).result = .ok b ↔
      ∃ a, x.result = .ok a ∧ read a = .ok b := by
  cases h : x.result with
  | ok a => simp [bind_of_ok h, ofResult]
  | error f => simp [bind_of_error h]

/-- An answer that there is gives what is read of it. -/
theorem result_bind_ofResult_of_ok {a : α} (h : x.result = .ok a) :
    (x >>= fun a => ofResult (read a)).result = read a := by
  rw [bind_of_ok h]
  rfl

end Reading

end Attempt

/-- A fault that was renamed had another name before. -/
theorem exists_of_mapError_eq_error {ε ε' α : Type} {x : Except ε α} {rename : ε → ε'} {e : ε'}
    (h : x.mapError rename = .error e) : ∃ e', x = .error e' ∧ rename e' = e := by
  cases x with
  | error e' => exact ⟨e', rfl, Except.error.inj h⟩
  | ok a => cases h

/-- Renaming faults leaves results alone. -/
theorem mapError_eq_ok_iff {ε ε' α : Type} {x : Except ε α} {rename : ε → ε'} {a : α} :
    x.mapError rename = .ok a ↔ x = .ok a := by
  cases x with
  | error e => exact ⟨fun h => (nomatch h), fun h => (nomatch h)⟩
  | ok b =>
    show Except.ok b = Except.ok a ↔ _
    rw [Except.ok.injEq, Except.ok.injEq]

end LintGate
