import LintGate.Provenance
import LintGate.Text.Digits

/-!
# The porcelain format of line provenance

The version control system prints the provenance of a file line by line, one record per line of
the file: a *header* that names the revision and the line, some lines of commit data, and the
content of the line behind a tab. Reading keeps the headers: `header?` recognises one, lines that
begin with a tab are content and never looked at, and every other line is commit data.

A header is a revision of seven to sixty-four hexadecimal digits in lower case and two or three
numbers behind it, all set apart by single blanks. The second number is the line; it is the only
one whose value is taken, and a line named twice keeps its place and gets the later revision.
-/

namespace LintGate.Porcelain

open Text

/-- A digit of a revision. -/
def isRevisionDigit (c : Char) : Bool := c.isDigit || ('a' ≤ c && c ≤ 'f')

/-- The numeral behind one blank, and what follows it. -/
def blankNumeral? : List Char → Option (List Nat × List Char)
  | ' ' :: r =>
    match spanDigits digit? r with
    | ([], _) => none
    | found => some found
  | _ => none

/-- Nothing, or the number of lines that the record's group has. -/
def isGroupSize (s : List Char) : Bool :=
  match s with
  | [] => true
  | s => match blankNumeral? s with
    | some (_, []) => true
    | _ => false

/-- A text without the line ends at its end. -/
def withoutLineEnd (s : List Char) : List Char :=
  (s.reverse.dropWhile fun c => c == '\r' || c == '\n').reverse

/-- **The header that a line is**: its revision, and the digits of the line's number. -/
def header? (s : List Char) : Option (String × List Nat) := do
  let revision := s.takeWhile isRevisionDigit
  guard (7 ≤ revision.length ∧ revision.length ≤ 64)
  let (_, r) ← blankNumeral? (s.dropWhile isRevisionDigit)
  let (line, r) ← blankNumeral? r
  guard (isGroupSize r)
  return (String.ofList revision, line)

/-- The header of a printed line: none for content and for commit data. -/
def headerOfLine? (line : String) : Option (String × List Nat) :=
  match line.toList with
  | '\t' :: _ => none
  | s => header? (withoutLineEnd s)

/-- The provenance with the header of one more line put in; a line number with too many digits is
refused, and their number told. -/
def addLine (p : Provenance) (line : String) : Except Nat Provenance :=
  match headerOfLine? line with
  | none => .ok p
  | some (revision, digits) =>
    match readNumeral digits with
    | .ok n => .ok (p.put n revision)
    | .error count => .error count

/-- **The provenance that printed lines give.** -/
def read (lines : List String) : Except Nat Provenance := lines.foldlM addLine []

end LintGate.Porcelain
