import LintGate.Json.Binary
import LintGate.Table

/-!
# JSON values

A value is what a document says once its text is read: integers of any size and binary fractions
are kept apart, and an object is a table, so its members stand in the order of first entry and
every key has one value.
-/

namespace LintGate

/-- **A JSON value.** -/
inductive Json
  | null
  | bool (b : Bool)
  | int (i : Int)
  | frac (x : Json.Binary)
  | str (s : String)
  | arr (items : List Json)
  | obj (members : List (String × Json))
  deriving Repr, Inhabited

namespace Json

/-- The members of an object. -/
def members? : Json → Option (Table String Json)
  | .obj ms => some ms
  | _ => none

/-- A member of an object; none if there is no such member or the value is no object. -/
def member? (j : Json) (key : String) : Option Json :=
  match j with
  | .obj ms => Table.get? ms key
  | _ => none

/-- The object with one member replaced; other values have no members to replace. -/
def withMember (j : Json) (key : String) (v : Json) : Json :=
  match j with
  | .obj ms => .obj (Table.put ms key v)
  | _ => j

mutual

/-- **How many levels a value has**: one by itself, and one more than any of its parts. -/
def levels : Json → Nat
  | .arr items => levelsOfItems items + 1
  | .obj members => levelsOfMembers members + 1
  | _ => 1

/-- The most levels that any of some items has. -/
def levelsOfItems : List Json → Nat
  | [] => 0
  | v :: r => max v.levels (levelsOfItems r)

/-- The most levels that any of some members has. -/
def levelsOfMembers : List (String × Json) → Nat
  | [] => 0
  | (_, v) :: r => max v.levels (levelsOfMembers r)

end

/-- The members of objects are a table as soon as each key is entered once. -/
def ofMembers (ms : List (String × Json)) : Json := .obj (Table.ofEntries ms)

end Json

end LintGate
