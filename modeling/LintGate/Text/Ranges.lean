/-!
# Sets of characters given by ranges

The classes that a standard fixes by long tables are stored as closed ranges of code points, in
rising order. `within` is membership; nothing else is ever asked of a table.
-/

namespace LintGate.Text

/-- **Membership in a table of closed ranges.** -/
def within (table : List (Nat × Nat)) (c : Char) : Bool :=
  table.any fun r => r.1 ≤ c.toNat && c.toNat ≤ r.2

end LintGate.Text
