import LintGate.Json.Basic
import LintGate.Json.Shortest
import LintGate.Text.Quoted

/-!
# Writing JSON

Documents are written in two styles. The **compact** style puts nothing between the tokens and
shows every character that may stand in a string as itself. The **spaced** style puts a blank
behind commas and colons and keeps to ASCII: every other character is written by the code units
of its UTF-16 form. What the styles share is one recursion over the value; a `Style` says the
rest.
-/

namespace LintGate.Json

open LintGate.Text (hexDigits)

/-- What sets one way of writing apart from another. -/
structure Style where
  /-- The text between two items or two members. -/
  comma : List Char
  /-- The text between a key and its value. -/
  colon : List Char
  /-- How a character is written that has no short escape. -/
  other : Char → List Char
  /-- How a fraction is written. -/
  frac : Binary → List Char

/-- The escape that writes a code unit by its hexadecimal value. -/
def unitEscape (n : Nat) : List Char := '\\' :: 'u' :: hexDigits 4 n

/-- The character by the one or two code units of its UTF-16 form. -/
def utf16Escape (c : Char) : List Char :=
  if c.toNat < 0x10000 then unitEscape c.toNat
  else
    unitEscape (0xd800 + (c.toNat - 0x10000) / 0x400) ++
      unitEscape (0xdc00 + (c.toNat - 0x10000) % 0x400)

/-- The compact style escapes only what must not stand in a string. -/
def compact : Style where
  comma := [',']
  colon := [':']
  other c := if c.toNat < 0x20 then unitEscape c.toNat else [c]
  frac := Binary.text

/-- The spaced style shows printable ASCII and escapes the rest. -/
def spaced : Style where
  comma := [',', ' ']
  colon := [':', ' ']
  other c := if 0x20 ≤ c.toNat ∧ c.toNat < 0x7f then [c] else utf16Escape c
  frac := Binary.text

/-- **One character inside a string.** -/
def Style.char (style : Style) (c : Char) : List Char :=
  if c = '"' then ['\\', '"']
  else if c = '\\' then ['\\', '\\']
  else if c = '\n' then ['\\', 'n']
  else if c = '\r' then ['\\', 'r']
  else if c = '\t' then ['\\', 't']
  else if c = '\x08' then ['\\', 'b']
  else if c = '\x0c' then ['\\', 'f']
  else style.other c

/-- **A string in its quotes.** -/
def Style.string (style : Style) (s : String) : List Char :=
  '"' :: s.toList.flatMap style.char ++ ['"']

mutual

/-- **The text of a value.** -/
def Style.value (style : Style) : Json → List Char
  | .null => "null".toList
  | .bool true => "true".toList
  | .bool false => "false".toList
  | .int i => (toString i).toList
  | .frac x => style.frac x
  | .str s => style.string s
  | .arr items => '[' :: style.items items ++ [']']
  | .obj members => '{' :: style.members members ++ ['}']

/-- The items of an array. -/
def Style.items (style : Style) : List Json → List Char
  | [] => []
  | [v] => style.value v
  | v :: r => style.value v ++ style.comma ++ style.items r

/-- The members of an object. -/
def Style.members (style : Style) : List (String × Json) → List Char
  | [] => []
  | [(k, v)] => style.string k ++ style.colon ++ style.value v
  | (k, v) :: r =>
    style.string k ++ style.colon ++ style.value v ++ style.comma ++ style.members r

end

/-- **The document of a value** in a style. -/
def write (style : Style) (j : Json) : String := String.ofList (style.value j)

end LintGate.Json
