import ImportAlias.Decimal.Binary64
import ImportAlias.Text.Basic

/-!
# The shortest decimal that reads back

A number of the 64-bit binary format is written with the fewest decimal digits that read back as
that number, and among those with the digits nearest to it. The numbers that read back are those
between the midpoints to its two neighbours, the midpoints included when the mantissa is even.
For one digit, two, and so on up to seventeen, the two points next to the number on the decimal
grid of that many digits are tried.
-/

namespace ImportAlias

namespace Binary64

/-- The number in quarters of a unit. -/
def quarters (x : Binary64) : Nat := 4 * x.units

/-- The midpoint to the next smaller number, in quarters of a unit. That number is only half as
far away when the mantissa is the least of its shift. -/
def lowerBound (x : Binary64) : Nat :=
  x.quarters - (if x.mantissa = Nat.pow 2 52 ∧ 0 < x.shift then 1 else 2) * Nat.pow 2 x.shift

/-- The midpoint to the next larger number, in quarters of a unit. -/
def upperBound (x : Binary64) : Nat := x.quarters + 2 * Nat.pow 2 x.shift

/-- Whether `num / den` quarters of a unit read back as the number. -/
def readsBack (x : Binary64) (num den : Nat) : Bool :=
  if x.mantissa % 2 = 0 then
    decide (x.lowerBound * den ≤ num) && decide (num ≤ x.upperBound * den)
  else decide (x.lowerBound * den < num) && decide (num < x.upperBound * den)

/-- The decimal `digits · 10 ^ exponent`. -/
structure Decimal where
  digits : Nat
  exponent : Int
  deriving DecidableEq, Repr

/-- Quarters of a unit in the decimal `n · 10 ^ exponent`, as a quotient. -/
def decimalQuarters (n : Nat) : Int → Nat × Nat
  | .ofNat k => (n * Nat.pow 10 k * 4 * unitsPerOne, 1)
  | .negSucc k => (n * 4 * unitsPerOne, Nat.pow 10 (k + 1))

/-- The point on the grid of multiples of `10 ^ exponent` that is nearest to the number among the
two next to it that read back, if one does; a tie goes to the even point. -/
def onGrid (x : Binary64) (exponent : Int) : Option Decimal :=
  let (num, den) := decimalQuarters 1 exponent
  let below := x.quarters * den / num
  let reads (n : Nat) : Bool := x.readsBack (n * num) den
  let twice := 2 * x.quarters * den
  let between := (2 * below + 1) * num
  if reads below && reads (below + 1) then
    if twice < between ∨ (twice = between ∧ below % 2 = 0) then some ⟨below, exponent⟩
    else some ⟨below + 1, exponent⟩
  else if reads below then some ⟨below, exponent⟩
  else if reads (below + 1) then some ⟨below + 1, exponent⟩
  else none

/-- The least `k` from `start` on, within `count` steps, for which the number is below `10 ^ k`. -/
def magnitudeFrom (x : Binary64) (start : Int) : Nat → Int
  | 0 => start
  | count + 1 =>
    let (num, den) := decimalQuarters 1 start
    if x.quarters * den < num then start else magnitudeFrom x (start + 1) count

/-- The number of digits before the point, or minus the zeros after it. -/
def magnitude (x : Binary64) : Int := magnitudeFrom x (-323) 640

/-- Try grids of more and more digits. -/
def shortestFrom (x : Binary64) (exponent : Int) : Nat → Option Decimal
  | 0 => none
  | count + 1 =>
    match x.onGrid exponent with
    | some d => some d
    | none => shortestFrom x (exponent - 1) count

/-- The decimal with the fewest digits that reads back as the number. -/
def shortest (x : Binary64) : Decimal :=
  ((x.shortestFrom (x.magnitude - 1) 17).getD ⟨0, 0⟩)

/-! ### Notation

A number is written positionally, with at least one digit after the point, when its first digit
lies between the fifth place after the point and the sixteenth before it. Any other is written
with an exponent, whose sign is always shown. -/

/-- The digits of a decimal without the zeros at their end, and how many digits stand before the
point. -/
def digitsAndPoint (d : Decimal) : Text × Int :=
  let all := Text.ofNat d.digits
  (Text.trimEnd '0' all, d.exponent + all.length)

/-- A number that is not zero, in decimal notation. -/
def renderDecimal (d : Decimal) : Text :=
  let (digits, point) := digitsAndPoint d
  let count : Int := digits.length
  if 0 < point ∧ point ≤ 16 then
    if count ≤ point then
      digits ++ List.replicate (point - count).toNat '0' ++ ['.', '0']
    else digits.take point.toNat ++ '.' :: digits.drop point.toNat
  else if -5 < point ∧ point ≤ 0 then
    '0' :: '.' :: List.replicate (-point).toNat '0' ++ digits
  else
    let power := point - 1
    let mark := if power < 0 then ['e', '-'] else ['e', '+']
    digits.take 1 ++ (if count = 1 then [] else '.' :: digits.drop 1) ++ mark ++
      Text.ofNat power.natAbs

/-- The number as text. -/
def render (x : Binary64) : Text :=
  if x.mantissa = 0 then "0.0".toList else renderDecimal x.shortest

end Binary64

end ImportAlias
