import LintGate.Json.Basic
import LintGate.Text.Integer

/-!
# Reading values into records

A *reader* turns a JSON value into a value of some type or tells everything that is wrong with
it. Problems carry the path to the offending part, so the readers of parts need not know where
they are used: `Checked.under` puts the step in front. Records are read field by field, and
`Checked.and` keeps going after a failure, so that the problems of all fields come together, in
the order of the fields.

Readers are lenient where a value plainly means the one that is asked for: an integer may be
written as a text, as a fraction without fractional part or as a truth value, and a truth value
as one of the customary words. What they accept is said once, here; the records themselves only
name their fields.
-/

namespace LintGate.Schema

open LintGate.Text

/-- A step from a value to one of its parts. -/
inductive Step
  /-- The member with this key. -/
  | key (k : String)
  /-- The item at this position. -/
  | index (i : Nat)
  deriving DecidableEq, Repr

/-- What is wrong with a part. -/
inductive Defect
  /-- A required member is absent. -/
  | missing
  /-- A record is expected, and the value is no object. -/
  | notRecord
  /-- A table is expected, and the value is no object. -/
  | notTable
  /-- A list is expected. -/
  | notList
  /-- A tuple is expected. -/
  | notTuple
  /-- A text is expected. -/
  | notText
  /-- The text is too short. -/
  | tooShort
  /-- An integer is expected. -/
  | notInteger
  /-- The text does not write an integer. -/
  | integerText
  /-- The integer is too large for its form. -/
  | integerSize
  /-- The number has a fractional part. -/
  | fraction
  /-- The number is not finite. -/
  | notFinite
  /-- The number does not exceed its lower bound. -/
  | notAbove
  /-- The number lies below its least value. -/
  | below
  /-- A truth value is expected. -/
  | notTruth
  /-- The text or number stands for no truth value. -/
  | truthText
  /-- The value is none of the listed ones. -/
  | notListed
  /-- A path is expected. -/
  | notPath
  /-- The record cannot be changed. -/
  | frozen
  /-- The record's own condition on the value fails. -/
  | refused
  deriving DecidableEq, Repr

/-- A defect and the way to the part that has it. -/
structure Problem where
  /-- The steps from the value read to the part. -/
  path : List Step
  /-- What is wrong there. -/
  defect : Defect
  deriving DecidableEq, Repr

/-- **What a reader returns**: a value, or everything that is wrong. -/
abbrev Checked (α : Type) := Except (List Problem) α

/-- **Why a value is no record of some name.** -/
structure Invalid where
  /-- The record's name. -/
  record : String
  /-- Its problems, in the order of its fields. -/
  problems : List Problem
  deriving DecidableEq, Repr

/-- The headline of a refusal: how many problems there are, and with what. -/
def Invalid.message (i : Invalid) : String :=
  match i.problems with
  | [_] => "1 validation error for " ++ i.record
  | ps => toString ps.length ++ " validation errors for " ++ i.record

namespace Checked

variable {α β : Type}

/-- A value with nothing wrong. -/
def make (a : α) : Checked α := .ok a

/-- A single defect of the value itself. -/
def fail (d : Defect) : Checked α := .error [⟨[], d⟩]

/-- The problems of a part, seen from the whole. -/
def under (s : Step) : Checked α → Checked α
  | .ok a => .ok a
  | .error ps => .error (ps.map fun p => { p with path := s :: p.path })

/-- **A function and its argument checked together**: the problems of both are kept. -/
def and (f : Checked (α → β)) (a : Checked α) : Checked β :=
  match f, a with
  | .ok f, .ok a => .ok (f a)
  | .ok _, .error ps => .error ps
  | .error ps, .ok _ => .error ps
  | .error ps, .error qs => .error (ps ++ qs)

/-- All of some checked values, or the problems of all that fail. -/
def all : List (Checked α) → Checked (List α)
  | [] => .ok []
  | c :: cs => and (c.map List.cons) (all cs)

/-- The result under the name of the record that was read. -/
def named (record : String) : Checked α → Except Invalid α
  | .ok a => .ok a
  | .error ps => .error ⟨record, ps⟩

/-- Two checked parts are right exactly when both are. -/
theorem and_eq_ok_iff {f : Checked (α → β)} {a : Checked α} {b : β} :
    f.and a = .ok b ↔ ∃ g x, f = .ok g ∧ a = .ok x ∧ g x = b := by
  cases f <;> cases a <;> simp [and]

/-- All are right exactly when each one is. -/
theorem all_eq_ok_iff {cs : List (Checked α)} {as : List α} :
    all cs = .ok as ↔ cs = as.map .ok := by
  induction cs generalizing as with
  | nil => cases as <;> simp [all]
  | cons c cs ih =>
    cases as with
    | nil => cases c <;> simp [all, and_eq_ok_iff, Except.map]
    | cons a as =>
      cases c with
      | error ps => simp [all, and_eq_ok_iff, Except.map]
      | ok b => simpa [all, and_eq_ok_iff, Except.map, ih] using And.comm

end Checked

open Checked

variable {α : Type}

/-! ## Truth values, texts and integers -/

/-- The words for false and true. -/
def truthWords : List (String × Bool) := [
  ("0", false), ("off", false), ("f", false), ("false", false), ("n", false), ("no", false),
  ("1", true), ("on", true), ("t", true), ("true", true), ("y", true), ("yes", true)]

/-- The bound on the magnitude of numbers that fit a machine word. -/
def wordBound : Nat := Nat.pow 2 63

/-- The truth value of a number that fits a machine word: zero or one. -/
def truthOfWord (i : Int) : Checked Bool :=
  if i = 0 then .ok false else if i = 1 then .ok true else fail .truthText

/-- **A truth value**: itself, zero or one in any form, or one of the words for it in any letter
case. A number that fits no machine word is no candidate at all, nor is one with a fraction. -/
def truth : Json → Checked Bool
  | .bool b => .ok b
  | .int i => if -(wordBound : Int) ≤ i ∧ i < wordBound then truthOfWord i else fail .notTruth
  | .frac x =>
    match x.toInt? with
    | some i => if i.natAbs < wordBound then truthOfWord i else fail .notTruth
    | none => fail .notTruth
  | .str s =>
    match truthWords.lookup (String.ofList (s.toList.map Char.toLower)) with
    | some b => .ok b
    | none => fail .truthText
  | _ => fail .notTruth

/-- **A text.** -/
def text : Json → Checked String
  | .str s => .ok s
  | _ => fail .notText

/-- A text that is not empty. -/
def someText (j : Json) : Checked String :=
  match text j with
  | .ok s => if s = "" then fail .tooShort else .ok s
  | .error ps => .error ps

/-- **An integer**: itself, a truth value, a fraction without fractional part that is less than
`wordBound` in magnitude, or a text that writes one. -/
def integer : Json → Checked Int
  | .int i => .ok i
  | .bool b => .ok (if b then 1 else 0)
  | .frac x =>
    if x.isFinite then
      match x.toInt? with
      | some i => if i.natAbs < wordBound then .ok i else fail .integerSize
      | none => fail .fraction
    else fail .notFinite
  | .str s =>
    match Integer.ofText s with
    | .ok i => .ok i
    | .error .malformed => fail .integerText
    | .error .tooLong => fail .integerSize
  | _ => fail .notInteger

/-- An integer of at least `least`; `short` is what is wrong with a smaller one. -/
def natural (least : Nat) (short : Defect) (j : Json) : Checked Nat :=
  match integer j with
  | .ok i => if (least : Int) ≤ i then .ok i.toNat else fail short
  | .error ps => .error ps

/-- A place in a file, counted from one. -/
def position : Json → Checked Nat := natural 1 .notAbove

/-- A number of things. -/
def count : Json → Checked Nat := natural 0 .below

/-- A text, or nothing for null. -/
def optionalText : Json → Checked (Option String)
  | .null => .ok none
  | j => (text j).map some

/-- One of the listed values, by its name. -/
def listed (names : List (String × α)) : Json → Checked α
  | .str s =>
    match names.lookup s with
    | some a => .ok a
    | none => fail .notListed
  | _ => fail .notListed

/-! ## Lists, tables and records -/

/-- Every item of a list, read the same way; `wrong` is the defect of a value that is none. -/
def listOf (wrong : Defect) (item : Json → Checked α) : Json → Checked (List α)
  | .arr vs => all (vs.mapIdx fun i v => (item v).under (.index i))
  | _ => fail wrong

/-- Every value of a table, read the same way. -/
def tableOf (entry : String → Json → Checked α) : Json → Checked (Table String α)
  | .obj ms => all (ms.map fun (k, v) => ((entry k v).under (.key k)).map fun a => (k, a))
  | _ => fail .notTable

/-- The members of a record. -/
def record (fields : Table String Json → Checked α) : Json → Checked α
  | .obj ms => fields ms
  | _ => fail .notRecord

/-- A member that must be there. -/
def required (ms : Table String Json) (key : String) (reader : Json → Checked α) : Checked α :=
  match ms.get? key with
  | some v => (reader v).under (.key key)
  | none => under (.key key) (fail .missing)

/-- A member with a value to fall back on. -/
def optional (ms : Table String Json) (key : String) (fallback : α) (reader : Json → Checked α) :
    Checked α :=
  match ms.get? key with
  | some v => (reader v).under (.key key)
  | none => .ok fallback

/-- **Reading every item succeeds exactly when each one does.** -/
theorem listOf_eq_ok_iff {wrong : Defect} {item : Json → Checked α} {vs : List Json}
    {as : List α} :
    listOf wrong item (.arr vs) = .ok as ↔
      (vs.mapIdx fun i v => (item v).under (.index i)) = as.map .ok := by
  simp [listOf, all_eq_ok_iff]

end LintGate.Schema
