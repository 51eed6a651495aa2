import LintGate.Text.Blank
import LintGate.Text.Digits

/-!
# Integers as texts

A *plain* integer is an optional minus sign and ASCII digits, which begin with a zero only if that
is all of them. A text may dress an integer up: with white space around the whole, a plus sign,
zeros in front with underscores strewn among them, single underscores between the digits, and a
decimal point with zeros behind it. `ofText` reads both: a text is taken as it stands, and
undressed only when that fails.

A minus sign may also stand behind the zeros; one in front of them as well is one too many. Only
a text whose first characters are a plain integer is ever refused for its length: a dressed
integer that is too long counts as malformed.
-/

namespace LintGate.Text.Integer

/-- **Why a text writes no integer.** -/
inductive Refusal
  /-- It is none. -/
  | malformed
  /-- It is too long. -/
  | tooLong
  deriving DecidableEq, Repr

/-- A digit that a numeral may begin with. -/
def isLeadingDigit (c : Char) : Bool := '1' ≤ c && c ≤ '9'

/-- What is left of a numeral behind zeros and underscores, `before` being the last of them. It
stays where it stands in front of a point, and at the end of the text. -/
def behindZeros (before : Char) : List Char → Option (List Char)
  | [] => some [before]
  | c :: r =>
    if c == '0' || c == '_' then behindZeros c r
    else if c == '.' then some (before :: c :: r)
    else if isLeadingDigit c || c == '-' then some (c :: r)
    else none

/-- **A numeral without the zeros in front of it.** -/
def significant? : List Char → Option (List Char)
  | [] => none
  | c :: r =>
    if c == '0' then behindZeros c r
    else if isLeadingDigit c then some (c :: r)
    else none

/-- **A plain integer.** Its length is that of its digits, and is looked at before what follows
them. -/
def plain (s : List Char) : Except Refusal Int :=
  let (negative, r) := match s with
    | '-' :: r => (true, r)
    | _ => (false, s)
  match spanDigits asciiDigit? r with
  | ([], _) => .error .malformed
  | (0 :: _ :: _, _) => .error .malformed
  | (ds, rest) =>
    if longest < ds.length then .error .tooLong
    else if rest = [] then .ok (if negative then -(numberOf ds : Int) else numberOf ds)
    else .error .malformed

/-- The text in front of a decimal point, if nothing but zeros stands behind it. -/
def withoutZeroFraction (s : List Char) : List Char :=
  match s.dropWhile (· != '.') with
  | _ :: zeros => if zeros != [] && zeros.all (· == '0') then s.takeWhile (· != '.') else s
  | [] => s

/-- Two underscores stand side by side. -/
def hasDoubleUnderscore : List Char → Bool
  | '_' :: '_' :: _ => true
  | _ :: r => hasDoubleUnderscore r
  | [] => false

/-- The text without its underscores, if each of them has something else on either side. -/
def withoutUnderscores (s : List Char) : List Char :=
  if s.head? == some '_' || s.getLast? == some '_' || hasDoubleUnderscore s then s
  else s.filter (· != '_')

/-- A dressed integer without what it is dressed in: the white space around it first, then a sign
and the zeros in front, then the zeros behind a point, then the underscores. -/
def undressed? (s : List Char) : Option (List Char) :=
  let (minus, r) := match trimWith isSpace s with
    | '-' :: r => (['-'], r)
    | '+' :: r => ([], r)
    | r => ([], r)
  (significant? r).map fun t => withoutUnderscores (withoutZeroFraction (minus ++ t))

/-- **The integer a text writes.** -/
def ofText (s : String) : Except Refusal Int :=
  match plain s.toList with
  | .error .malformed =>
    match undressed? s.toList with
    | some t => (plain t).mapError fun _ => .malformed
    | none => .error .malformed
  | known => known

end LintGate.Text.Integer
