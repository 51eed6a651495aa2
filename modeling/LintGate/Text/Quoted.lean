import LintGate.Text.Printable

/-!
# Quoted text

A text is shown in quotes when a message names it exactly: a path that cannot be read, a key
that is missing. Single quotes are used, unless the text holds single quotes and no double ones.
Inside, the backslash and the quote in use are escaped by a backslash, tab, line feed and
carriage return by their letters, and every other character that is not printable by its code
point in hexadecimal: two digits, four after a `u`, or eight after a `U`.

`quote` writes the form. It shows every character, so two texts never share one.
-/

namespace LintGate.Text

/-- The hexadecimal digit of a value below sixteen, in lower case. -/
def hexDigit (n : Nat) : Char := Nat.digitChar n

/-- The lowest `width` hexadecimal digits of a number. -/
def hexDigits : Nat → Nat → List Char
  | 0, _ => []
  | width + 1, n => hexDigits width (n / 16) ++ [hexDigit (n % 16)]

/-- **How one character is shown** between quotes of the given kind. -/
def quoteChar (mark c : Char) : List Char :=
  if c = mark || c = '\\' then ['\\', c]
  else if c = '\t' then ['\\', 't']
  else if c = '\n' then ['\\', 'n']
  else if c = '\r' then ['\\', 'r']
  else if isPrintable c then [c]
  else if c.toNat ≤ 0xff then '\\' :: 'x' :: hexDigits 2 c.toNat
  else if c.toNat ≤ 0xffff then '\\' :: 'u' :: hexDigits 4 c.toNat
  else '\\' :: 'U' :: hexDigits 8 c.toNat

/-- The quotes a text is put in. -/
def quoteMark (s : List Char) : Char :=
  if '\'' ∈ s ∧ '"' ∉ s then '"' else '\''

/-- **The text in quotes.** -/
def quote (s : String) : String :=
  let mark := quoteMark s.toList
  String.ofList (mark :: s.toList.flatMap (quoteChar mark) ++ [mark])

end LintGate.Text
