/-!
# Terminal control sequences

A control sequence is an escape character, an opening bracket, any number of parameter
characters (digits, semicolons and question marks) and one ASCII letter. Text that is not meant
for a terminal is written without its control sequences: `withoutSequences` reads the text once
from the left and drops each sequence it meets.
-/

namespace LintGate.Text

/-- The escape character that opens a control sequence. -/
def escapeChar : Char := '\x1b'

/-- The characters between the bracket and the final letter. -/
def isParameter (c : Char) : Bool := c == ';' || c == '?' || c.isDigit

/-- How many characters the control sequence takes whose escape character stands right before
the text, if one does. -/
def sequenceLength? (s : List Char) : Option Nat :=
  match s with
  | '[' :: r =>
    match r.dropWhile isParameter with
    | c :: _ => if c.isAlpha then some ((r.takeWhile isParameter).length + 2) else none
    | [] => none
  | _ => none

/-- The text without its first `skip` characters and without the control sequences behind. -/
def dropSequences : Nat → List Char → List Char
  | _, [] => []
  | skip + 1, _ :: r => dropSequences skip r
  | 0, c :: r =>
    if c = escapeChar then
      match sequenceLength? r with
      | some n => dropSequences n r
      | none => c :: dropSequences 0 r
    else c :: dropSequences 0 r

/-- **The text without its terminal control sequences.** -/
def withoutSequences (s : List Char) : List Char := dropSequences 0 s

end LintGate.Text
