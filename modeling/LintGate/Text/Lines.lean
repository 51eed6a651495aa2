import LintGate.Text.Blank

/-!
# Lines of a text

Text is cut into lines at every *break*: line feed, carriage return, the vertical tab and form
feed, the three upper information separators, the next-line control and the two Unicode
separators. A carriage return with a line feed behind it is one break. The text behind the last
break is a line only when it is not empty, so a text and the same text with a break at its end
have the same lines.

Text that comes from a file or a process has its line ends unified first: `unifyLineEnds` turns
a carriage return, alone or with its line feed, into one line feed.
-/

namespace LintGate.Text

/-- **The characters that end a line.** -/
def isBreak (c : Char) : Bool :=
  let n := c.toNat
  (0x0a ≤ n && n ≤ 0x0d) || (0x1c ≤ n && n ≤ 0x1e) || n == 0x85 || n == 0x2028 || n == 0x2029

/-- **The lines of a text**, without the breaks that end them. -/
def linesOf : List Char → List (List Char)
  | [] => []
  | '\r' :: '\n' :: r => [] :: linesOf r
  | c :: r =>
    if isBreak c then [] :: linesOf r
    else match linesOf r with
      | [] => [[c]]
      | l :: ls => (c :: l) :: ls

/-- The lines of a text. -/
def lines (s : String) : List String := (linesOf s.toList).map String.ofList

/-- **One line end for all**: a carriage return, alone or before a line feed, is a line feed. -/
def unifyLineEnds : List Char → List Char
  | [] => []
  | '\r' :: '\n' :: r => '\n' :: unifyLineEnds r
  | c :: r => (if c = '\r' then '\n' else c) :: unifyLineEnds r

@[simp] theorem linesOf_nil : linesOf [] = [] := by simp [linesOf]

end LintGate.Text
