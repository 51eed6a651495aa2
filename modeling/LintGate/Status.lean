import LintGate.Text.Ansi
import LintGate.Text.CellWidth

/-!
# Status lines

A status line tells a person how the run goes. It opens with a symbol, unless symbols are not
wanted, and on a terminal it has the colour of its tone, unless colours are not wanted.

Nothing in the message is interpreted. Control characters that would move the cursor are taken out,
and a tab becomes blanks up to the next multiple of eight terminal cells. Lines are never wrapped.
The colour is set anew for each line, and behind each tab, so that nothing but the text itself is
ever coloured.
-/

namespace LintGate

/-- **What standard output is.** -/
inductive Output
  /-- A terminal. -/
  | terminal
  /-- Something else. -/
  | pipe
  /-- It was closed. -/
  | closed
  /-- There is none. -/
  | missing
  deriving DecidableEq, Repr

/-- It is certain that a terminal shows the output. -/
def Output.isTerminal (o : Output) : Bool := o == .terminal

/-- **The tone of a status line.** -/
inductive Tone
  | info
  | ok
  | fail
  deriving DecidableEq, Repr

/-- The symbol of a tone, with the blank behind it. -/
def Tone.symbol : Tone → String
  | info => "\u2139\ufe0f "
  | ok => "\u2705 "
  | fail => "\u274c "

/-- The digit of a tone's colour: cyan, green or red. -/
def Tone.colour : Tone → Char
  | info => '6'
  | ok => '2'
  | fail => '1'

/-- **How status lines are shown.** -/
structure Display where
  /-- With symbols. -/
  symbols : Bool := true
  /-- With colours or without; undecided, a terminal has them. -/
  colours : Option Bool := none
  /-- On a terminal. -/
  terminal : Bool := false
  deriving DecidableEq, Repr

namespace Status

open Text

/-- A symbol, if symbols are wanted. -/
def symbolIf (wanted : Bool) (symbol : String) : String := if wanted then symbol else ""

/-- The lines are coloured. -/
def isColoured (d : Display) : Bool := d.colours.getD d.terminal && d.terminal

/-- Control characters that a status line never has. -/
def isDropped (c : Char) : Bool :=
  c == '\x07' || c == '\x08' || c == '\x0b' || c == '\x0c' || c == '\r'

/-- The pieces of a text between the characters `mark`. -/
def splitAt (mark : Char) : List Char → List (List Char)
  | [] => [[]]
  | c :: r =>
    if c = mark then [] :: splitAt mark r
    else match splitAt mark r with
      | [] => [[c]]
      | p :: ps => (c :: p) :: ps

/-- The distance between two tab stops. -/
def tabWidth : Nat := 8

/-- A piece that a tab ends, filled with blanks up to the next tab stop: one at least. -/
def toTabStop (piece : List Char) : List Char :=
  let piece := piece ++ [' ']
  piece ++ List.replicate ((tabWidth - cells piece % tabWidth) % tabWidth) ' '

/-- The pieces of a line, those before the last filled up to their tab stops. -/
def atTabStops : List (List Char) → List (List Char)
  | [] => []
  | [last] => [last]
  | piece :: rest => toTabStop piece :: atTabStops rest

/-- A piece in a colour; nothing is not coloured. -/
def coloured (colour : Char) (piece : List Char) : List Char :=
  if piece = [] then []
  else [escapeChar, '[', '3', colour, 'm'] ++ piece ++ [escapeChar, '[', '0', 'm']

/-- **One line as it is shown.** -/
def shownLine (colour : Option Char) (line : List Char) : List Char :=
  (atTabStops (splitAt '\t' line)).flatMap (colour.elim id coloured)

/-- **A status line as it is shown.** The message may have several lines. -/
def shown (d : Display) (tone : Tone) (message : String) : String :=
  let text := (symbolIf d.symbols tone.symbol ++ message).toList.filter (!isDropped ·)
  let colour := if isColoured d then some tone.colour else none
  String.ofList <| (splitAt '\n' text).flatMap fun line => shownLine colour line ++ ['\n']

end Status

end LintGate
