/-! Non-negative binary floating-point values of 53 bits, as exact integers.
Every result is the representable value nearest to the exact one, a half going to
the even mantissa; results past the largest value are `none`. -/
namespace Colorization.Decimal

/-- The quotient rounded to the nearest natural number, a half to the even one. -/
def divEven (num den : Nat) : Nat :=
  let floor := num / den
  let twice := 2 * (num % den)
  if twice < den then floor
  else if den < twice then floor + 1
  else floor + floor % 2

/-- `mantissa * 2 ^ exponent`, with `exponent ≥ -1074` and the mantissa below `2 ^ 53`;
below `2 ^ 52` only at the least exponent. -/
structure Binary64 where
  mantissa : Nat
  exponent : Int
deriving DecidableEq

/-- `num * base ^ power / den` as a fraction, for powers of either sign. -/
def scaled (base : Nat) (power : Int) (num den : Nat) : Nat × Nat :=
  if 0 ≤ power then (num * Nat.pow base power.toNat, den)
  else (num, den * Nat.pow base (-power).toNat)

/-- The exponent `e` with `base ^ e ≤ num / den < base ^ (e + 1)`, found from a guess
that is at most one too high or too low. -/
def floorLog (base : Nat) (guess : Int) (num den : Nat) : Int :=
  let reaches (e : Int) : Bool :=
    let bound := scaled base e den num
    decide (bound.1 ≤ bound.2)
  if reaches (guess + 1) then guess + 1 else if reaches guess then guess else guess - 1

def log2Guess (num den : Nat) : Int := (Nat.log2 num : Int) - Nat.log2 den

namespace Binary64

def zero : Binary64 := ⟨0, -1074⟩

/-- The nearest value to `num / den`. -/
def round? (num den : Nat) : Option Binary64 :=
  if num = 0 then some zero
  else
    let exponent := max (floorLog 2 (log2Guess num den) num den - 52) (-1074)
    let fraction := scaled 2 (-exponent) num den
    let mantissa := divEven fraction.1 fraction.2
    let result : Binary64 :=
      if mantissa = Nat.pow 2 53 then ⟨Nat.pow 2 52, exponent + 1⟩ else ⟨mantissa, exponent⟩
    if result.exponent ≤ 971 then some result else none

def fraction (x : Binary64) : Nat × Nat := scaled 2 x.exponent x.mantissa 1

def mul? (x y : Binary64) : Option Binary64 :=
  round? (x.fraction.1 * y.fraction.1) (x.fraction.2 * y.fraction.2)

def div? (x y : Binary64) : Option Binary64 :=
  round? (x.fraction.1 * y.fraction.2) (x.fraction.2 * y.fraction.1)

/-- The nearest value to `digits * 10 ^ exponent`. A power past any finite result is
not computed. -/
def ofDecimal? (digits : Nat) (exponent : Int) : Option Binary64 :=
  if digits = 0 then some zero
  else
    let size : Int := Nat.log2 digits
    if 400 < exponent then none
    else if size + exponent * 3 < -1200 then some zero
    else
      let fraction := scaled 10 exponent digits 1
      round? fraction.1 fraction.2

end Binary64

end Colorization.Decimal
