import LintGate.Fault

/-!
# Attempts

Whatever runs commands is an *attempt*: it has a result or a fault, and in either case a list of the
commands that were started on the way. A command counts as started once the system has been asked
to run it, also when that ends in a fault; a command whose executable is not found does not.

Attempts follow one another by `bind`, which keeps the commands of both. That is the only way in
which commands add up, so what was started can be read off the structure of a computation.
-/

namespace LintGate

/-- **A started command.** -/
structure Call where
  /-- The executable and its arguments. -/
  command : List String
  /-- The directory it runs in, unless it is the current one. -/
  folder : Option Path
  deriving DecidableEq, Repr

/-- **An attempt at a value.** -/
structure Attempt (α : Type) where
  /-- The commands that were started, in order. -/
  calls : List Call
  /-- How it ended. -/
  result : Except Fault α

namespace Attempt

variable {α β : Type}

/-- A value at hand. -/
def done (a : α) : Attempt α := ⟨[], .ok a⟩

/-- A fault that no command brought about. -/
def fail (f : Fault) : Attempt α := ⟨[], .error f⟩

/-- A result at hand. -/
def ofResult (r : Except Fault α) : Attempt α := ⟨[], r⟩

/-- **One attempt after another.** -/
def bind (x : Attempt α) (next : α → Attempt β) : Attempt β :=
  match x.result with
  | .ok a => ⟨x.calls ++ (next a).calls, (next a).result⟩
  | .error f => ⟨x.calls, .error f⟩

instance : Monad Attempt where
  pure := done
  bind := bind

/-- The attempt without its commands. -/
def silent (x : Attempt α) : Attempt α := { x with calls := [] }

/-- **An attempt made inside an iteration**, which passes its fault on. -/
def passedOn (x : Attempt α) : Attempt α := { x with result := x.result.mapError Fault.passedOn }

@[simp] theorem calls_done (a : α) : (done a).calls = [] := rfl

@[simp] theorem result_done (a : α) : (done a).result = .ok a := rfl

@[simp] theorem calls_fail (f : Fault) : (fail f : Attempt α).calls = [] := rfl

@[simp] theorem result_fail (f : Fault) : (fail f : Attempt α).result = .error f := rfl

@[simp] theorem calls_silent (x : Attempt α) : x.silent.calls = [] := rfl

@[simp] theorem result_silent (x : Attempt α) : x.silent.result = x.result := rfl

@[simp] theorem calls_passedOn (x : Attempt α) : x.passedOn.calls = x.calls := rfl

@[simp] theorem passedOn_silent (x : Attempt α) : x.silent.passedOn = x.passedOn.silent := rfl

/-- A result is passed on as it is. -/
@[simp] theorem result_passedOn_eq_ok_iff {x : Attempt α} {a : α} :
    x.passedOn.result = .ok a ↔ x.result = .ok a := by
  unfold passedOn
  cases x.result with
  | error f => exact ⟨fun h => (nomatch h), fun h => (nomatch h)⟩
  | ok b => exact Iff.rfl

/-- A fault that comes out of an iteration came up inside it. -/
theorem result_passedOn_eq_error_iff {x : Attempt α} {g : Fault} :
    x.passedOn.result = .error g ↔ ∃ f, x.result = .error f ∧ f.passedOn = g := by
  unfold passedOn
  cases x.result with
  | error f =>
    constructor
    · intro h
      exact ⟨f, rfl, Except.error.inj h⟩
    · rintro ⟨f, ⟨⟩, rfl⟩
      rfl
  | ok a => exact ⟨fun h => (nomatch h), fun ⟨_, h, _⟩ => (nomatch h)⟩

/-- A successful attempt hands its value on. -/
theorem bind_of_ok {x : Attempt α} {a : α} (h : x.result = .ok a) (next : α → Attempt β) :
    x >>= next = ⟨x.calls ++ (next a).calls, (next a).result⟩ := by
  show bind x next = _
  simp [bind, h]

/-- A failed attempt ends the computation. -/
theorem bind_of_error {x : Attempt α} {f : Fault} (h : x.result = .error f)
    (next : α → Attempt β) : x >>= next = ⟨x.calls, .error f⟩ := by
  show bind x next = _
  simp [bind, h]

end Attempt

/-- **How a finished command ended.** A stream that was not kept is absent. -/
structure Finished where
  /-- Its status. -/
  status : Int
  /-- What it wrote to its output. -/
  output : Option String
  /-- What it wrote to its error stream. -/
  errors : Option String
  deriving DecidableEq, Repr

/-- What a finished command wrote to its output, if it was kept. -/
def Finished.outputText (f : Finished) : String := f.output.getD ""

/-- **What runs commands**, each in a directory or in the current one. -/
abbrev Runner := List String → Option Path → Attempt Finished

end LintGate
