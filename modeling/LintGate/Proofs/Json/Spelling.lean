import LintGate.Json.Reader

/-!
# Spellings of JSON values

One value has many documents: blanks stand between the tokens or do not, a character is escaped or
shown, a number is written out or with an exponent, a key is entered twice. A **spelling** is a
document taken apart into its tokens, each with the choices that were made in writing it. It has
a text and a value (`Spelling.text`, `Spelling.value`), and it says how deep its brackets are
nested (`Spelling.nesting`).

Nothing here mentions the reader's productions. What is shared with it are the tables of words,
escapes and digits, the pairing of code units (`joinPieces`) and the table that members make. That
the reader accepts the spellings, all of them and nothing else, is shown in
`LintGate.Proofs.Json.Reading`.

The parts of an object are kept as they are written, the ones included that a later member with
the same key replaces: `Spelling.entries?` lists them all, and `Spelling.member?` is the one that
counts.
-/

namespace LintGate.Json

open LintGate.Text

/-! ## Tokens -/

/-- **Blanks** between two tokens. -/
structure Gap where
  /-- The blanks, if there are any. -/
  chars : List Char
  /-- They are nothing else. -/
  isFiller_of_mem : ∀ c ∈ chars, isFiller c = true

/-- No blanks. -/
def Gap.none : Gap := ⟨[], fun _ h => absurd h List.not_mem_nil⟩

/-- **A word** that stands for a value. -/
structure Word where
  /-- The word. -/
  chars : List Char
  /-- What it stands for. -/
  value : Json
  /-- It is one of the words. -/
  mem_words : (chars, value) ∈ words

/-- **One character or code unit of a string**, as it is written. -/
inductive Glyph
  /-- A character that stands for itself. -/
  | plain (c : Char) (ne_quote : c ≠ '"') (ne_backslash : c ≠ '\\') (visible : 0x20 ≤ c.toNat)
  /-- A backslash and a letter. -/
  | short (letter c : Char) (escapes : shortEscape? letter = some c)
  /-- A code unit in four hexadecimal digits. -/
  | unit (a b c d : Char) (n : Nat) (reads : unit? a b c d = some n)

namespace Glyph

/-- A glyph as it is written. -/
def chars : Glyph → List Char
  | plain c .. => [c]
  | short letter .. => ['\\', letter]
  | unit a b c d .. => ['\\', 'u', a, b, c, d]

/-- What a glyph stands for. -/
def piece : Glyph → Piece
  | plain c .. => .char c
  | short _ c _ => .char c
  | unit _ _ _ _ n _ => .unit n

end Glyph

/-- The glyphs of a string between its quotes. -/
def quoted (gs : List Glyph) : List Char := '"' :: (gs.flatMap Glyph.chars ++ ['"'])

/-- **The string that glyphs write.** -/
def spelled (gs : List Glyph) : String := String.ofList (joinPieces (gs.map Glyph.piece))

/-- The sign of an exponent, as it is written. -/
inductive Sign
  | absent
  | plus
  | minus

/-- A sign as it is written. -/
def Sign.chars : Sign → List Char
  | absent => []
  | plus => ['+']
  | minus => ['-']

/-- The sign is that of a negative exponent. -/
def Sign.isNegative : Sign → Bool
  | minus => true
  | _ => false

/-- **The exponent of a number.** -/
structure Exponent where
  /-- The letter that introduces it. -/
  letter : Char
  /-- It is one of two. -/
  letter_eq : letter = 'e' ∨ letter = 'E'
  /-- Its sign. -/
  sign : Sign
  /-- Its digits. -/
  digits : List (Fin 10)
  /-- There are some. -/
  digits_ne_nil : digits ≠ []

namespace Exponent

/-- An exponent as it is written. -/
def chars (e : Exponent) : List Char := e.letter :: (e.sign.chars ++ digitChars e.digits)

/-- The exponent. -/
def value (e : Exponent) : Int :=
  if e.sign.isNegative then -(numberOf (e.digits.map Fin.val) : Int)
  else numberOf (e.digits.map Fin.val)

end Exponent

/-- The digits of a fraction with the point in front; no point without digits. -/
def fractionChars (ds : List (Fin 10)) : List Char :=
  if ds = [] then [] else '.' :: digitChars ds

/-- An exponent as it is written, if there is one. -/
def exponentChars : Option Exponent → List Char
  | none => []
  | some e => e.chars

/-- **A number**: it has an integer part without superfluous zeros, and perhaps a fraction and an
exponent. -/
structure Numeral where
  /-- It begins with a minus. -/
  negative : Bool
  /-- The digits of the integer part. -/
  whole : List (Fin 10)
  /-- There are some. -/
  whole_ne_nil : whole ≠ []
  /-- A zero stands in front of no other digit. -/
  whole_eq_zero : whole.head? = some 0 → whole = [0]
  /-- The digits of the fraction; without any there is no point either. -/
  fraction : List (Fin 10)
  /-- The exponent. -/
  exponent : Option Exponent
  /-- An integer is not too long. -/
  length_le : fraction = [] → exponent = none → whole.length ≤ longest

namespace Numeral

/-- A number as it is written. -/
def chars (n : Numeral) : List Char :=
  (if n.negative then ['-'] else []) ++
    (digitChars n.whole ++ (fractionChars n.fraction ++ exponentChars n.exponent))

/-- The number with its sign, where it has neither fraction nor exponent. -/
def integer (n : Numeral) : Int :=
  if n.negative then -(numberOf (n.whole.map Fin.val) : Int) else numberOf (n.whole.map Fin.val)

/-- The nearest binary fraction, where it has a fraction or an exponent. -/
def binary (n : Numeral) : Binary :=
  let ds := (n.whole ++ n.fraction).map Fin.val
  let exponent := match n.exponent with
    | some e => e.value
    | none => 0
  .ofDecimal n.negative (numberOf ds) ds.length (exponent - n.fraction.length)

/-- **The value of a number.** -/
def value (n : Numeral) : Json :=
  match n.fraction, n.exponent with
  | [], none => .int n.integer
  | _, _ => .frac n.binary

end Numeral

/-- **A key with its colon.** -/
structure Key where
  /-- The key. -/
  glyphs : List Glyph
  /-- What stands between the key and the colon, -/
  before : Gap
  /-- and between the colon and the value. -/
  behind : Gap

namespace Key

/-- A key and its colon as they are written. -/
def chars (k : Key) : List Char := quoted k.glyphs ++ (k.before.chars ++ ':' :: k.behind.chars)

/-- The key. -/
def name (k : Key) : String := spelled k.glyphs

end Key

/-! ## Values -/

mutual

/-- **A spelling** of a value. -/
inductive Spelling
  /-- A word. -/
  | word (w : Word)
  /-- A number. -/
  | number (n : Numeral)
  /-- A string. -/
  | string (gs : List Glyph)
  /-- An array without items. -/
  | emptyArray (gap : Gap)
  /-- An array with items. -/
  | array (gap : Gap) (items : Items)
  /-- An object without members. -/
  | emptyObject (gap : Gap)
  /-- An object with members. -/
  | object (gap : Gap) (members : Members)

/-- The items of an array, one at least, and its closing bracket. -/
inductive Items
  /-- The last item. -/
  | last (v : Spelling) (gap : Gap)
  /-- An item with others behind it. -/
  | more (v : Spelling) (before behind : Gap) (rest : Items)

/-- The members of an object, one at least, and its closing bracket. -/
inductive Members
  /-- The last member. -/
  | last (k : Key) (v : Spelling) (gap : Gap)
  /-- A member with others behind it. -/
  | more (k : Key) (v : Spelling) (before behind : Gap) (rest : Members)

end

mutual

/-- **The text of a spelling.** -/
def Spelling.text : Spelling → List Char
  | .word w => w.chars
  | .number n => n.chars
  | .string gs => quoted gs
  | .emptyArray gap => '[' :: (gap.chars ++ [']'])
  | .array gap items => '[' :: (gap.chars ++ items.text)
  | .emptyObject gap => '\x7b' :: (gap.chars ++ ['\x7d'])
  | .object gap members => '\x7b' :: (gap.chars ++ members.text)

/-- The text of items up to the closing bracket. -/
def Items.text : Items → List Char
  | .last v gap => v.text ++ (gap.chars ++ [']'])
  | .more v before behind rest => v.text ++ (before.chars ++ ',' :: (behind.chars ++ rest.text))

/-- The text of members up to the closing bracket. -/
def Members.text : Members → List Char
  | .last k v gap => k.chars ++ (v.text ++ (gap.chars ++ ['\x7d']))
  | .more k v before behind rest =>
    k.chars ++ (v.text ++ (before.chars ++ ',' :: (behind.chars ++ rest.text)))

end

mutual

/-- **The value of a spelling.** -/
def Spelling.value : Spelling → Json
  | .word w => w.value
  | .number n => n.value
  | .string gs => .str (spelled gs)
  | .emptyArray _ => .arr []
  | .array _ items => .arr items.values
  | .emptyObject _ => .obj []
  | .object _ members => .ofMembers members.values

/-- The values of items. -/
def Items.values : Items → List Json
  | .last v _ => [v.value]
  | .more v _ _ rest => v.value :: rest.values

/-- The values of members, each with its key, as they are entered. -/
def Members.values : Members → List (String × Json)
  | .last k v _ => [(k.name, v.value)]
  | .more k v _ _ rest => (k.name, v.value) :: rest.values

end

mutual

/-- **How many brackets of a spelling stand one inside the other.** -/
def Spelling.nesting : Spelling → Nat
  | .word _ => 0
  | .number _ => 0
  | .string _ => 0
  | .emptyArray _ => 1
  | .array _ items => items.nesting + 1
  | .emptyObject _ => 1
  | .object _ members => members.nesting + 1

/-- The deepest nesting of any item. -/
def Items.nesting : Items → Nat
  | .last v _ => v.nesting
  | .more v _ _ rest => max v.nesting rest.nesting

/-- The deepest nesting of any member. -/
def Members.nesting : Members → Nat
  | .last _ v _ => v.nesting
  | .more _ v _ _ rest => max v.nesting rest.nesting

end

/-! ## Parts -/

/-- The items, one after the other. -/
def Items.toList : Items → List Spelling
  | .last v _ => [v]
  | .more v _ _ rest => v :: rest.toList

/-- The members, one after the other. -/
def Members.toList : Members → List (String × Spelling)
  | .last k v _ => [(k.name, v)]
  | .more k v _ _ rest => (k.name, v) :: rest.toList

namespace Spelling

/-- The items of an array; none if it is no array. -/
def items? : Spelling → Option (List Spelling)
  | .emptyArray _ => some []
  | .array _ items => some items.toList
  | _ => none

/-- **The members of an object as they are written**, with repeated keys; none if it is no
object. -/
def entries? : Spelling → Option (List (String × Spelling))
  | .emptyObject _ => some []
  | .object _ members => some members.toList
  | _ => none

/-- A spelling is the text of a document when there is nothing but blanks around it. -/
def Spells (sp : Spelling) (s : String) : Prop :=
  ∃ before behind : Gap, s.toList = before.chars ++ (sp.text ++ behind.chars)

end Spelling

/-- **A text is a document of a value** when it spells the value in some way. -/
def IsDocument (s : String) (j : Json) : Prop := ∃ sp : Spelling, sp.Spells s ∧ sp.value = j

/-- **The member with a key that counts** is the last one. -/
def lastMember? (entries : List (String × Spelling)) (key : String) : Option Spelling :=
  entries.reverse.lookup key

theorem Items.values_eq_map : ∀ items : Items, items.values = items.toList.map Spelling.value
  | .last _ _ => rfl
  | .more v _ _ rest => congrArg (v.value :: ·) rest.values_eq_map

theorem Members.values_eq_map :
    ∀ members : Members, members.values = members.toList.map fun e => (e.1, e.2.value)
  | .last _ _ _ => rfl
  | .more k v _ _ rest => congrArg ((k.name, v.value) :: ·) rest.values_eq_map

end LintGate.Json
