/-!
# Rounding to 64-bit binary numbers

A non-negative number of the 64-bit binary format is `mantissa · 2 ^ shift` in units of `2 ^ -1074`,
the smallest positive one. The mantissa has 53 bits, fewer only when the shift is zero, and the
shift is at most 2045. Everything here is exact arithmetic on natural numbers: `round` takes a
quotient to the nearest number of the format, a tie to the even mantissa, and the product and
the quotient of two numbers are rounded once.
-/

namespace ImportAlias

/-- A finite non-negative number of the 64-bit binary format. -/
structure Binary64 where
  mantissa : Nat
  shift : Nat
  deriving DecidableEq, Repr

namespace Binary64

/-- The number of units that make up one. -/
def unitsPerOne : Nat := Nat.pow 2 1074

/-- The greatest shift of a finite number. -/
def maxShift : Nat := 2045

/-- The number zero. -/
def zero : Binary64 := ⟨0, 0⟩

/-- The number in units of `2 ^ -1074`. -/
def units (x : Binary64) : Nat := x.mantissa * Nat.pow 2 x.shift

/-- The number nearest to the quotient `num / den` of units, a tie going to the even mantissa;
nothing when it is too large to be finite. -/
def roundUnits (num den : Nat) : Option Binary64 :=
  let shift := (num / den).log2 - 52
  let step := den * Nat.pow 2 shift
  let mantissa := num / step
  let excess := 2 * (num % step)
  let mantissa :=
    if step < excess ∨ (step = excess ∧ mantissa % 2 = 1) then mantissa + 1 else mantissa
  let x : Binary64 :=
    if mantissa = Nat.pow 2 53 then ⟨Nat.pow 2 52, shift + 1⟩ else ⟨mantissa, shift⟩
  if maxShift < x.shift then none else some x

/-- The number nearest to the quotient `num / den`. -/
def round (num den : Nat) : Option Binary64 := roundUnits (num * unitsPerOne) den

/-- The product, rounded. -/
def mul (x y : Binary64) : Option Binary64 := roundUnits (x.units * y.units) unitsPerOne

/-- The quotient, rounded. -/
def div (x y : Binary64) : Option Binary64 := roundUnits (x.units * unitsPerOne) y.units

/-- The power of ten, rounded. -/
def pow10 (k : Nat) : Option Binary64 := round (Nat.pow 10 k) 1

/-- The greatest power of ten by which a number is scaled in one step. -/
def maxPow10 : Nat := 308

/-- The number divided by `10 ^ maxPow10` in each of several steps, and by `10 ^ last` in the end,
each quotient rounded. Once it is zero it stays zero. -/
def scaleDown (last : Nat) : (steps : Nat) → Binary64 → Option Binary64
  | 0, x => (pow10 last).bind x.div
  | steps + 1, x =>
    if x = zero then some zero
    else ((pow10 maxPow10).bind x.div).bind fun y => scaleDown last steps y

/-- The number `significand · 10 ^ exponent`, computed with one rounding of the significand, one
of the power and one of the product or quotient; nothing when it is too large. -/
def ofDecimal (significand : Nat) (exponent : Int) : Option Binary64 :=
  (round significand 1).bind fun x =>
    match exponent with
    | .ofNat k =>
      if k ≤ maxPow10 then (pow10 k).bind x.mul else if x = zero then some zero else none
    | .negSucc k =>
      let steps := k / maxPow10
      scaleDown (k + 1 - steps * maxPow10) steps x

end Binary64

end ImportAlias
