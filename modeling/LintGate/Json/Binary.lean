/-!
# Binary fractions

A JSON number with a fraction or an exponent is held as the nearest binary fraction of 53
significant bits: `magnitude · 2 ^ exponent`, the exponent never below -1074. Ties go to the even
magnitude, and a value of 2^1024 or more after rounding is infinite. `ofDecimal` rounds exactly,
in natural arithmetic; `exact` is the value again as a fraction of integers.

The questions that are asked of such a number have exact answers too: whether it is an integer
(`toInt?`), and its shortest text (`LintGate.Json.Shortest`).
-/

namespace LintGate.Json

/-- **A binary fraction** in the range of double precision, or one of the three values beyond. -/
inductive Binary
  /-- Not a number. -/
  | nan
  /-- Beyond every number, on one side of zero. -/
  | infinite (negative : Bool)
  /-- A sign, a magnitude below 2^53, and the power of two it is multiplied by. -/
  | finite (negative : Bool) (magnitude : Nat) (exponent : Int)
  deriving DecidableEq, Repr, Inhabited

namespace Binary

/-- The quotient of two numbers rounded to the nearest integer, a tie to the even one. -/
def roundQuotient (num den : Nat) : Nat :=
  let q := num / den
  let r := num % den
  if 2 * r < den then q
  else if den < 2 * r then q + 1
  else if q % 2 = 0 then q else q + 1

/-- A quotient `num / den` divided by a power of two, as a quotient again. -/
def scaleDown (num den : Nat) (exponent : Int) : Nat × Nat :=
  let scale := Nat.pow 2 exponent.natAbs
  if exponent < 0 then (num * scale, den) else (num, den * scale)

/-- The exponent for which the quotient has 53 bits before the binary point, but no less
than -1074. -/
def exponentFor (num den : Nat) : Int :=
  let guess : Int := (Nat.log2 num : Int) - (Nat.log2 den : Int) - 53
  let (n, d) := scaleDown num den guess
  let exact := if Nat.pow 2 53 * d ≤ n then guess + 1 else guess
  max exact (-1074)

/-- **The binary fraction nearest to a quotient.** -/
def ofQuotient (negative : Bool) (num den : Nat) : Binary :=
  if num = 0 then .finite negative 0 (-1074)
  else
    let e := exponentFor num den
    let (n, d) := scaleDown num den e
    let m := roundQuotient n d
    let (m, e) := if m = Nat.pow 2 53 then (Nat.pow 2 52, e + 1) else (m, e)
    if 971 < e then .infinite negative else .finite negative m e

/-- **The binary fraction nearest to a decimal**: the digits' number times a power of ten. Powers
that put the value beyond every finite magnitude, or below half of the smallest one, are settled
by size alone: `number` has at most `digits` digits, and at least a quarter as many as it has
bits. -/
def ofDecimal (negative : Bool) (number : Nat) (digits : Nat) (exponent : Int) : Binary :=
  if number = 0 then .finite negative 0 (-1074)
  else if 400 < exponent + (Nat.log2 number / 4 : Nat) then .infinite negative
  else if exponent + digits < -400 then .finite negative 0 (-1074)
  else if exponent < 0 then ofQuotient negative number (Nat.pow 10 exponent.natAbs)
  else ofQuotient negative (number * Nat.pow 10 exponent.natAbs) 1

/-- The number is the integer itself, when it is one. -/
def toInt? : Binary → Option Int
  | .finite negative m e =>
    let signed (n : Nat) : Int := if negative then -(n : Int) else n
    if 0 ≤ e then some (signed (m * Nat.pow 2 e.natAbs))
    else if m % Nat.pow 2 e.natAbs = 0 then some (signed (m / Nat.pow 2 e.natAbs))
    else none
  | _ => none

/-- The number is finite. -/
def isFinite : Binary → Bool
  | .finite .. => true
  | _ => false

end Binary

end LintGate.Json
