import LintGate.Text.Quoted

/-!
# Bytes to text

A decoder cuts bytes into *pieces*: a character, or a run of bytes that encodes none together
with the reason. What becomes of the second kind is a matter of its own (`Repair`): they can be
refused, replaced, left out or spelled out. Splitting the two makes the decoder total and keeps
one definition for all four.

For UTF-8 a malformed run is the longest beginning of a well-formed sequence that the bytes
hold, or one byte when there is none. Decoding goes on right behind it, so a truncated sequence
never swallows the byte that follows.
-/

namespace LintGate.Text

/-- Why bytes encode no character. -/
inductive Malformed
  /-- No sequence begins with this byte. -/
  | start
  /-- The sequence goes on with a byte that cannot stand there. -/
  | continuation
  /-- The bytes end inside a sequence. -/
  | truncated
  /-- The byte lies outside a seven-bit code. -/
  | range
  deriving DecidableEq, Repr

/-- A decoder's reading of some bytes. -/
inductive Piece
  /-- The bytes encode a character. -/
  | char (c : Char)
  /-- The bytes encode none. -/
  | bad (bytes : List UInt8) (why : Malformed)
  deriving DecidableEq, Repr

/-- The codes that output can be decoded from. -/
inductive Code
  | utf8
  | latin1
  | ascii
  deriving DecidableEq, Repr

/-- What becomes of bytes that encode no character. -/
inductive Repair
  /-- They are refused, and the whole text with them. -/
  | refuse
  /-- One replacement character stands for each run. -/
  | replace
  /-- They are left out. -/
  | omit
  /-- Each byte is spelled out in hexadecimal. -/
  | spell
  deriving DecidableEq, Repr

/-- Bytes that were refused: where they are and why. -/
structure DecodeFault where
  /-- The code the bytes were read in. -/
  code : Code
  /-- The number of bytes before the refused ones. -/
  offset : Nat
  /-- The refused bytes. -/
  bytes : List UInt8
  /-- Why they encode no character. -/
  why : Malformed
  deriving DecidableEq, Repr

/-- The byte can continue a sequence. -/
def isContinuation (b : UInt8) : Bool := 0x80 ≤ b && b ≤ 0xbf

/-- The bytes that may follow the first byte of a longer sequence. Some first bytes admit only
part of the continuation bytes: the rest would encode a shorter sequence's character, a
surrogate or a value above the last code point. -/
def isSecond (first b : UInt8) : Bool :=
  if first = 0xe0 then 0xa0 ≤ b && b ≤ 0xbf
  else if first = 0xed then 0x80 ≤ b && b ≤ 0x9f
  else if first = 0xf0 then 0x90 ≤ b && b ≤ 0xbf
  else if first = 0xf4 then 0x80 ≤ b && b ≤ 0x8f
  else isContinuation b

/-- The number of bytes in a sequence that begins with this byte; none begins so if zero. -/
def sequenceBytes (b : UInt8) : Nat :=
  if b < 0x80 then 1
  else if 0xc2 ≤ b && b ≤ 0xdf then 2
  else if 0xe0 ≤ b && b ≤ 0xef then 3
  else if 0xf0 ≤ b && b ≤ 0xf4 then 4
  else 0

/-- The six bits a continuation byte carries. -/
def payload (b : UInt8) : Nat := b.toNat % 64

/-- **The piece that begins with byte `a`**, when the bytes `r` follow, and how many of these it
takes. -/
def utf8Piece (a : UInt8) (r : List UInt8) : Piece × Nat :=
  match sequenceBytes a, r with
  | 0, _ => (.bad [a] .start, 0)
  | 1, _ => (.char (Char.ofNat a.toNat), 0)
  | _, [] => (.bad [a] .truncated, 0)
  | 2, b :: _ =>
    if isContinuation b then (.char (Char.ofNat (a.toNat % 32 * 64 + payload b)), 1)
    else (.bad [a] .continuation, 0)
  | n, b :: s =>
    if isSecond a b then
      match n, s with
      | _, [] => (.bad [a, b] .truncated, 1)
      | 3, c :: _ =>
        if isContinuation c then
          (.char (Char.ofNat ((a.toNat % 16 * 64 + payload b) * 64 + payload c)), 2)
        else (.bad [a, b] .continuation, 1)
      | _, c :: t =>
        if isContinuation c then
          match t with
          | [] => (.bad [a, b, c] .truncated, 2)
          | d :: _ =>
            if isContinuation d then
              (.char (Char.ofNat
                (((a.toNat % 8 * 64 + payload b) * 64 + payload c) * 64 + payload d)), 3)
            else (.bad [a, b, c] .continuation, 2)
        else (.bad [a, b] .continuation, 1)
    else (.bad [a] .continuation, 0)

/-- The pieces behind the first `skip` bytes. -/
def utf8PiecesFrom : Nat → List UInt8 → List Piece
  | _, [] => []
  | skip + 1, _ :: r => utf8PiecesFrom skip r
  | 0, a :: r =>
    let (piece, taken) := utf8Piece a r
    piece :: utf8PiecesFrom taken r

/-- **The pieces of UTF-8 text.** -/
def utf8Pieces (bytes : List UInt8) : List Piece := utf8PiecesFrom 0 bytes

/-- **The pieces of text in a code.** -/
def Code.pieces : Code → List UInt8 → List Piece
  | .utf8, bytes => utf8Pieces bytes
  | .latin1, bytes => bytes.map fun b => .char (Char.ofNat b.toNat)
  | .ascii, bytes => bytes.map fun b =>
      if b < 0x80 then .char (Char.ofNat b.toNat) else .bad [b] .range

/-- The number of bytes that encode a character in a code. -/
def Code.bytesOf : Code → Char → Nat
  | .utf8, c => c.utf8Size
  | _, _ => 1

/-- What a repair puts in the place of refused bytes. -/
def Repair.instead : Repair → List UInt8 → List Char
  | .refuse, _ => []
  | .replace, _ => ['\ufffd']
  | .omit, _ => []
  | .spell, bytes => bytes.flatMap fun b => '\\' :: 'x' :: hexDigits 2 b.toNat

/-- The text of some pieces, `offset` bytes into the whole. -/
def Code.assemble (code : Code) (repair : Repair) :
    Nat → List Piece → Except DecodeFault (List Char)
  | _, [] => .ok []
  | offset, .char c :: ps =>
    (code.assemble repair (offset + code.bytesOf c) ps).map (c :: ·)
  | offset, .bad bytes why :: ps =>
    if repair = .refuse then .error ⟨code, offset, bytes, why⟩
    else (code.assemble repair (offset + bytes.length) ps).map (repair.instead bytes ++ ·)

/-- **Bytes decoded to text.** -/
def decode (code : Code) (repair : Repair) (bytes : List UInt8) :
    Except DecodeFault (List Char) :=
  code.assemble repair 0 (code.pieces bytes)

/-- The name of a code in messages. -/
def Code.name : Code → String
  | .utf8 => "utf-8"
  | .latin1 => "latin-1"
  | .ascii => "ascii"

/-- The wording of a reason. -/
def Malformed.message : Malformed → String
  | .start => "invalid start byte"
  | .continuation => "invalid continuation byte"
  | .truncated => "unexpected end of data"
  | .range => "ordinal not in range(128)"

/-- **The message of a refusal** gives one byte by its value, several by their positions. -/
def DecodeFault.message (f : DecodeFault) : String :=
  let place := match f.bytes with
    | [b] => "byte 0x" ++ String.ofList (hexDigits 2 b.toNat) ++ " in position " ++
        toString f.offset
    | bytes => "bytes in position " ++ toString f.offset ++ "-" ++
        toString (f.offset + bytes.length - 1)
  "'" ++ f.code.name ++ "' codec can't decode " ++ place ++ ": " ++ f.why.message

end LintGate.Text
