import LintGate.Json.Basic
import LintGate.Text.Digits

/-!
# Reading JSON

The reader walks over the remaining characters of a document. Each production takes them and
returns a value with what remains behind it, or *stops*: at a flaw, named together with the rest
of the document that begins at the flaw, at an integer with too many digits, or at a bracket that
is nested too deeply. Positions are found at the very end, by measuring that rest against the
whole document (`Place.of`), so no production counts characters.

Beyond the standard the reader accepts the three words for numbers that are not finite. Blanks
are the four characters of the standard and no others, and control characters must be escaped in
strings. A surrogate escape without its partner stands for the replacement character. Of two
members with one key the last value counts, in the place of the first.

`value`, `items` and `members` call each other; the first argument bounds how deep, and `document`
passes the document's length twice over, which no document can exhaust. The second argument is the
number of brackets that may still be opened one inside the other.
-/

namespace LintGate.Json

open LintGate.Text

/-- What can be wrong with a document. -/
inductive Flaw
  /-- A value is missing. -/
  | value
  /-- A key is missing. -/
  | key
  /-- No colon follows a key. -/
  | colon
  /-- Neither a comma nor the closing bracket follows an item. -/
  | comma
  /-- A string is not closed. -/
  | openString
  /-- A control character stands in a string. -/
  | control
  /-- A backslash introduces no escape. -/
  | escape
  /-- A code unit is not written in four hexadecimal digits. -/
  | unitEscape
  /-- Text follows the document's value. -/
  | surplus
  /-- The document begins with a byte order mark. -/
  | byteOrderMark
  deriving DecidableEq, Repr

/-- What a bracket opens. -/
inductive Bracket
  | array
  | object
  deriving DecidableEq, Repr

/-- Why the reader stops. -/
inductive Stop
  /-- At a flaw, with the rest of the document from there on. -/
  | flaw (f : Flaw) (rest : List Char)
  /-- At an integer with this many digits. -/
  | digits (count : Nat)
  /-- At a bracket that is nested too deeply. -/
  | nesting (b : Bracket)
  deriving DecidableEq, Repr

/-- A production's result: a value and the characters behind it. -/
abbrev Reading (α : Type) := Except Stop (α × List Char)

/-- The blanks between tokens. -/
def isFiller (c : Char) : Bool := c == ' ' || c == '\t' || c == '\n' || c == '\r'

/-- The text behind the blanks at its beginning. -/
def skip (s : List Char) : List Char := s.dropWhile isFiller

/-- The value of a hexadecimal digit. -/
def hexValue? (c : Char) : Option Nat :=
  if c.isDigit then some (c.toNat - 48)
  else if 'a' ≤ c ∧ c ≤ 'f' then some (c.toNat - 87)
  else if 'A' ≤ c ∧ c ≤ 'F' then some (c.toNat - 55)
  else none

/-- The code unit that four hexadecimal digits write. -/
def unit? (a b c d : Char) : Option Nat := do
  return (((← hexValue? a) * 16 + (← hexValue? b)) * 16 + (← hexValue? c)) * 16 + (← hexValue? d)

/-- The character that a backslash and one letter stand for. -/
def shortEscape? (c : Char) : Option Char :=
  if c = '"' ∨ c = '\\' ∨ c = '/' then some c
  else if c = 'b' then some '\x08'
  else if c = 'f' then some '\x0c'
  else if c = 'n' then some '\n'
  else if c = 'r' then some '\r'
  else if c = 't' then some '\t'
  else none

/-- What stands between the quotes of a string: characters and escaped code units. -/
inductive Piece
  | char (c : Char)
  | unit (n : Nat)
  deriving DecidableEq, Repr

/-- The pieces of a string, from behind its opening quote to its closing one. `start` is the text
from the opening quote on. -/
def pieces (start : List Char) : List Char → Reading (List Piece)
  | [] => .error (.flaw .openString start)
  | '\\' :: 'u' :: a :: b :: c :: d :: r =>
    match unit? a b c d, r with
    | none, _ => .error (.flaw .unitEscape ('u' :: a :: b :: c :: d :: r))
    | some _, [] => .error (.flaw .unitEscape ('u' :: a :: b :: c :: d :: r))
    | some n, _ => (pieces start r).map fun (ps, rest) => (.unit n :: ps, rest)
  | '\\' :: 'u' :: r => .error (.flaw .unitEscape ('u' :: r))
  | ['\\'] => .error (.flaw .openString start)
  | '\\' :: c :: r =>
    match shortEscape? c with
    | some e => (pieces start r).map fun (ps, rest) => (.char e :: ps, rest)
    | none => .error (.flaw .escape ('\\' :: c :: r))
  | c :: r =>
    if c = '"' then .ok ([], r)
    else if c.toNat < 0x20 then .error (.flaw .control (c :: r))
    else (pieces start r).map fun (ps, rest) => (.char c :: ps, rest)

/-- The character of a code unit that has no partner. -/
def loneUnit (n : Nat) : Char :=
  if 0xd800 ≤ n ∧ n < 0xe000 then '\ufffd' else Char.ofNat n

/-- **The characters of some pieces**: two code units that form a surrogate pair are one. -/
def joinPieces : List Piece → List Char
  | [] => []
  | .unit hi :: .unit lo :: r =>
    if 0xd800 ≤ hi ∧ hi < 0xdc00 ∧ 0xdc00 ≤ lo ∧ lo < 0xe000 then
      Char.ofNat (0x10000 + (hi - 0xd800) * 0x400 + (lo - 0xdc00)) :: joinPieces r
    else loneUnit hi :: joinPieces (.unit lo :: r)
  | .unit n :: r => loneUnit n :: joinPieces r
  | .char c :: r => c :: joinPieces r

/-- **A string**, from behind its opening quote on. -/
def string (start s : List Char) : Reading String :=
  (pieces start s).map fun (ps, rest) => (String.ofList (joinPieces ps), rest)

/-- The digits of the integer part: a lone zero, or digits that begin with another one. -/
def integerPart? (s : List Char) : Option (List Nat × List Char) :=
  match s with
  | '0' :: r => some ([0], r)
  | c :: _ => if c.isDigit then some (spanDigits asciiDigit? s) else none
  | [] => none

/-- The digits behind a decimal point; none, and nothing taken, when no digit follows it. -/
def fractionPart (s : List Char) : List Nat × List Char :=
  match s with
  | '.' :: r => match spanDigits asciiDigit? r with
    | ([], _) => ([], s)
    | (ds, rest) => (ds, rest)
  | _ => ([], s)

/-- The sign of an exponent: whether it is negative. -/
def signPart (s : List Char) : Bool × List Char :=
  match s with
  | '-' :: r => (true, r)
  | '+' :: r => (false, r)
  | _ => (false, s)

/-- An exponent, if there is one: its sign and its digits. -/
def exponentPart? (s : List Char) : Option (Bool × List Nat × List Char) :=
  match s with
  | c :: r =>
    if c = 'e' ∨ c = 'E' then
      let (negative, r) := signPart r
      match spanDigits asciiDigit? r with
      | ([], _) => none
      | (ds, rest) => some (negative, ds, rest)
    else none
  | [] => none

/-- The minus in front of a number, which takes no plus. -/
def minusPart (s : List Char) : Bool × List Char :=
  match s with
  | '-' :: r => (true, r)
  | _ => (false, s)

/-- A number's digits put together with its sign. -/
def numeral (negative : Bool) (whole fraction : List Nat) (exponent : Option (Bool × List Nat)) :
    Except Stop Json :=
  match fraction, exponent with
  | [], none =>
    match readNumeral whole with
    | .ok n => .ok (.int (if negative then -(n : Int) else n))
    | .error count => .error (.digits count)
  | _, _ =>
    let ds := whole ++ fraction
    let e : Int := match exponent with
      | some (true, es) => -(numberOf es : Int)
      | some (false, es) => numberOf es
      | none => 0
    .ok (.frac (.ofDecimal negative (numberOf ds) ds.length (e - fraction.length)))

/-- **A number.** -/
def number (s : List Char) : Reading Json :=
  let (negative, r) := minusPart s
  match integerPart? r with
  | none => .error (.flaw .value s)
  | some (whole, r) =>
    let (fraction, r) := fractionPart r
    match exponentPart? r with
    | some (sign, es, rest) =>
      (numeral negative whole fraction (some (sign, es))).map fun v => (v, rest)
    | none => (numeral negative whole fraction none).map fun v => (v, r)

/-- The words that stand for values. -/
def words : List (List Char × Json) := [
  ("null".toList, .null), ("true".toList, .bool true), ("false".toList, .bool false),
  ("NaN".toList, .frac .nan), ("Infinity".toList, .frac (.infinite false)),
  ("-Infinity".toList, .frac (.infinite true))]

/-- The text behind a word at its beginning. -/
def after? : List Char → List Char → Option (List Char)
  | [], s => some s
  | c :: w, d :: s => if c = d then after? w s else none
  | _ :: _, [] => none

/-- A value that has no parts and is no string: a word or a number. -/
def scalar (s : List Char) : Reading Json :=
  match words.findSome? fun (w, v) => (after? w s).map fun rest => (v, rest) with
  | some found => .ok found
  | none => number s

mutual

/-- **A value**, at the beginning of the text. -/
def value : Nat → Nat → List Char → Reading Json
  | 0, _, s => .error (.flaw .value s)
  | depth + 1, room, s =>
    match s, room with
    | '"' :: r, _ => (string s r).map fun (t, rest) => (.str t, rest)
    | '\x7b' :: _, 0 => .error (.nesting .object)
    | '\x7b' :: r, room + 1 =>
      match skip r with
      | '\x7d' :: rest => .ok (.obj [], rest)
      | r => (members depth room r).map fun (ms, rest) => (.ofMembers ms, rest)
    | '[' :: _, 0 => .error (.nesting .array)
    | '[' :: r, room + 1 =>
      match skip r with
      | ']' :: rest => .ok (.arr [], rest)
      | r => (items depth room r).map fun (vs, rest) => (.arr vs, rest)
    | _, _ => scalar s

/-- The items of an array that is not empty, and its closing bracket. -/
def items : Nat → Nat → List Char → Except Stop (List Json × List Char)
  | 0, _, s => .error (.flaw .value s)
  | depth + 1, room, s => do
    let (v, r) ← value depth room s
    match skip r with
    | ']' :: rest => return ([v], rest)
    | ',' :: r =>
      let (vs, rest) ← items depth room (skip r)
      return (v :: vs, rest)
    | r => throw (.flaw .comma r)

/-- The members of an object that is not empty, and its closing bracket. -/
def members : Nat → Nat → List Char → Except Stop (List (String × Json) × List Char)
  | 0, _, s => .error (.flaw .key s)
  | depth + 1, room, s =>
    match s with
    | '"' :: r => do
      let (k, r) ← string s r
      match skip r with
      | ':' :: r =>
        let (v, r) ← value depth room (skip r)
        match skip r with
        | '\x7d' :: rest => return ([(k, v)], rest)
        | ',' :: r =>
          let (ms, rest) ← members depth room (skip r)
          return ((k, v) :: ms, rest)
        | r => throw (.flaw .comma r)
      | r => throw (.flaw .colon r)
    | _ => .error (.flaw .key s)

end

/-- How many brackets may be open one inside the other. -/
def deepest : Nat := 980

/-- A document: one value with blanks around it, and no byte order mark in front. -/
def document (room : Nat) (s : List Char) : Except Stop Json :=
  match s with
  | '\ufeff' :: _ => .error (.flaw .byteOrderMark s)
  | _ =>
    match value (2 * s.length + 2) room (skip s) with
    | .error stop => .error stop
    | .ok (v, r) =>
      match skip r with
      | [] => .ok v
      | rest => .error (.flaw .surplus rest)

/-- A place in a document, as messages name it: line and column count from one, lines end at line
feeds, and the offset counts the characters before the place. -/
structure Place where
  line : Nat
  column : Nat
  offset : Nat
  deriving DecidableEq, Repr

/-- The place at which the rest of a document begins. -/
def Place.of (document rest : List Char) : Place :=
  let before := document.take (document.length - rest.length)
  { line := before.count '\n' + 1
    column := (before.reverse.takeWhile (· != '\n')).length + 1
    offset := before.length }

/-- **Why a document cannot be read.** -/
inductive ReadFault
  /-- It has a flaw at a place. -/
  | flawed (f : Flaw) (place : Place)
  /-- An integer has this many digits. -/
  | digits (count : Nat)
  /-- A bracket is nested too deeply. -/
  | nesting (b : Bracket)
  deriving DecidableEq, Repr

/-- The value of a document in which so many brackets may be open one inside the other. -/
def readWithin (room : Nat) (s : String) : Except ReadFault Json :=
  match document room s.toList with
  | .ok v => .ok v
  | .error (.flaw f rest) => .error (.flawed f (.of s.toList rest))
  | .error (.digits count) => .error (.digits count)
  | .error (.nesting b) => .error (.nesting b)

/-- **The value of a document.** -/
def read (s : String) : Except ReadFault Json := readWithin deepest s

/-- The wording of a flaw. -/
def Flaw.message : Flaw → String
  | .value => "Expecting value"
  | .key => "Expecting property name enclosed in double quotes"
  | .colon => "Expecting ':' delimiter"
  | .comma => "Expecting ',' delimiter"
  | .openString => "Unterminated string starting at"
  | .control => "Invalid control character at"
  | .escape => "Invalid \\escape"
  | .unitEscape => "Invalid \\uXXXX escape"
  | .surplus => "Extra data"
  | .byteOrderMark => "Unexpected UTF-8 BOM (decode using utf-8-sig)"

/-- The wording of a place. -/
def Place.message (p : Place) : String :=
  "line " ++ toString p.line ++ " column " ++ toString p.column ++ " (char " ++
    toString p.offset ++ ")"

/-- The wording about a bracket that is nested too deeply. -/
def Bracket.message (b : Bracket) : String :=
  "maximum recursion depth exceeded while decoding a JSON " ++
    (match b with | .array => "array" | .object => "object") ++ " from a unicode string"

/-- **The message about a document that cannot be read.** -/
def ReadFault.message : ReadFault → String
  | .flawed f place => f.message ++ ": " ++ place.message
  | .digits count => tooManyDigits count
  | .nesting b => b.message

end LintGate.Json
