import LintGate.Json.Binary

/-!
# The shortest decimal of a binary fraction

Of the decimals that round to a given binary fraction, the one with the fewest digits stands for
it; among several of that length the nearest, and of two equally near ones the one with an even
last digit. `digits` searches the grids of one, two, … seventeen digits for a point inside the
interval of values that round to the fraction, whose ends belong to it exactly when the magnitude
is even. On each grid only the two neighbours of the value can be the answer.

`text` writes the digits in positional notation while the point stays within sixteen places, and
with a power of ten otherwise.
-/

namespace LintGate.Json.Binary

/-- A power of ten with any exponent, as a quotient. -/
def tenTo (e : Int) : Nat × Nat :=
  if e < 0 then (1, Nat.pow 10 e.natAbs) else (Nat.pow 10 e.natAbs, 1)

/-- A power of two with any exponent, as a quotient. -/
def twoTo (e : Int) : Nat × Nat :=
  if e < 0 then (1, Nat.pow 2 e.natAbs) else (Nat.pow 2 e.natAbs, 1)

/-- The interval of values that round to `m · 2 ^ e`, as quarters of `2 ^ e`. Below a power of two
the neighbour is only half as far. -/
def roundingBounds (m : Nat) (e : Int) : Nat × Nat :=
  (if m = Nat.pow 2 52 ∧ -1074 < e then 4 * m - 1 else 4 * m - 2, 4 * m + 2)

/-- The quotient `a / b` lies between the quarters of a power of two. -/
def liesBetween (m : Nat) (e : Int) (a b : Nat) : Bool :=
  let (lo, hi) := roundingBounds m e
  let (p, q) := twoTo (e - 2)
  if m % 2 = 0 then lo * p * b ≤ a * q && a * q ≤ hi * p * b
  else lo * p * b < a * q && a * q < hi * p * b

/-- How many places the first digit of a quotient stands before the decimal point, searched
downward from `place` for `fuel` steps. -/
def leadingPlace (num den : Nat) : Nat → Int → Int
  | 0, place => place
  | fuel + 1, place =>
    let (p, q) := tenTo place
    if p * den ≤ num * q then place else leadingPlace num den fuel (place - 1)

/-- The grid point with `count` digits that rounds to `m · 2 ^ e`, if there is one: its digits'
number and the power of ten. -/
def onGrid (m : Nat) (e : Int) (place : Int) (count : Nat) : Option (Nat × Int) :=
  let unit := place - count + 1
  let (p, q) := tenTo unit
  let (s, t) := twoTo e
  let below := m * s * q / (t * p)
  let fits (k : Nat) : Bool := liesBetween m e (k * p) q
  match fits below, fits (below + 1) with
  | true, true =>
    let twice := 2 * (m * s * q)
    let middle := (2 * below + 1) * (t * p)
    if twice < middle ∨ (twice = middle ∧ below % 2 = 0) then some (below, unit)
    else some (below + 1, unit)
  | true, false => some (below, unit)
  | false, true => some (below + 1, unit)
  | false, false => none

/-- **The shortest decimal**: the number its digits write, and the power of ten it is multiplied
by. -/
def digits (m : Nat) (e : Int) : Nat × Int :=
  let (s, t) := twoTo e
  let place := leadingPlace (m * s) t 700 310
  match (List.range 17).findSome? fun k => onGrid m e place (k + 1) with
  | some found => found
  | none => (m * s / t, 0)

/-- The decimal without zeros at its end. -/
def dropZeros : Nat → Nat × Int → Nat × Int
  | 0, d => d
  | fuel + 1, (n, k) =>
    if n ≠ 0 ∧ n % 10 = 0 then dropZeros fuel (n / 10, k + 1) else (n, k)

/-- The text of a finite number that is not negative. -/
def magnitudeText (m : Nat) (e : Int) : List Char :=
  if m = 0 then "0.0".toList
  else
    let (n, k) := dropZeros 18 (digits m e)
    let ds := Nat.toDigits 10 n
    let point := k + ds.length
    if 0 ≤ k ∧ point ≤ 16 then ds ++ List.replicate k.toNat '0' ++ ['.', '0']
    else if 0 < point ∧ point ≤ 16 then ds.take point.toNat ++ '.' :: ds.drop point.toNat
    else if -5 < point ∧ point ≤ 0 then
      '0' :: '.' :: (List.replicate point.natAbs '0' ++ ds)
    else
      let mantissa := match ds with
        | [d] => [d]
        | d :: more => d :: '.' :: more
        | [] => []
      mantissa ++ 'e' :: ((if 0 < point then "+" else "") ++ toString (point - 1)).toList

/-- **The text of a number.** A value that is not finite has no numeral and is written as null. -/
def text : Binary → List Char
  | .finite negative m e => (if negative then ['-'] else []) ++ magnitudeText m e
  | _ => "null".toList

end LintGate.Json.Binary
