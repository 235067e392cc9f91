import Colorization.Decimal.Binary64

/-! The decimal with the fewest digits that reads back as a given binary value, and
its text. Of the decimals with that many digits the nearest one is taken. -/
namespace Colorization.Decimal

/-- `digits * 10 ^ exponent`. -/
structure Shortest where
  digits : Nat
  exponent : Int
deriving DecidableEq

/-- The decimals that round to `x`, in quarters of the last mantissa bit: the ends
belong to it when the mantissa is even. -/
structure Interval where
  low : Nat
  high : Nat
  closed : Bool
  exponent : Int

def Binary64.interval (x : Binary64) : Interval where
  low := 4 * x.mantissa - (if x.mantissa = Nat.pow 2 52 ∧ x.exponent ≠ -1074 then 1 else 2)
  high := 4 * x.mantissa + 2
  closed := x.mantissa % 2 = 0
  exponent := x.exponent - 2

def Interval.contains (i : Interval) (digits : Nat) (exponent : Int) : Bool :=
  let point := scaled 10 exponent digits 1
  let low := scaled 2 i.exponent i.low 1
  let high := scaled 2 i.exponent i.high 1
  let left := low.1 * point.2
  let mid (bound : Nat × Nat) := point.1 * bound.2
  let right := high.1 * point.2
  if i.closed then left ≤ mid low && mid high ≤ right else left < mid low && mid high < right

def stripZeros : Nat → Shortest → Shortest
  | 0, s => s
  | fuel + 1, s =>
    if s.digits ≠ 0 ∧ s.digits % 10 = 0 then stripZeros fuel ⟨s.digits / 10, s.exponent + 1⟩ else s

/-- The better of the two neighbours of `x` on the grid of the multiples of
`10 ^ exponent`, if one reads back as `x`. -/
def onGrid? (x : Binary64) (exponent : Int) : Option Shortest :=
  let value := scaled 10 (-exponent) x.fraction.1 x.fraction.2
  let below := value.1 / value.2
  let downward := x.interval.contains below exponent
  let upward := x.interval.contains (below + 1) exponent
  if downward && upward then
    some (stripZeros 20 ⟨divEven value.1 value.2, exponent⟩)
  else if downward then some (stripZeros 20 ⟨below, exponent⟩)
  else if upward then some (stripZeros 20 ⟨below + 1, exponent⟩)
  else none

/-- Zero has the digit zero; seventeen digits always suffice. -/
def Binary64.shortest (x : Binary64) : Shortest :=
  if x.mantissa = 0 then ⟨0, 0⟩
  else
    let value := x.fraction
    let top := floorLog 10 (log2Guess value.1 value.2 * 1233 / 4096) value.1 value.2
    ((List.range 17).findSome? fun (n : Nat) => onGrid? x (top - n)).getD ⟨0, 0⟩

/-- Positional text with at least one digit on each side of the point, or scientific
text with a signed exponent where `positional` says so of the number of digits before
the point. -/
def Shortest.text (positional : Int → Bool) (s : Shortest) : String :=
  let digits := Nat.toDigits 10 s.digits
  let point : Int := digits.length + s.exponent
  if s.digits = 0 then "0.0"
  else if positional point then
    if 0 ≤ s.exponent then
      String.ofList (digits ++ List.replicate s.exponent.toNat '0') ++ ".0"
    else if 0 < point then
      String.ofList (digits.take point.toNat) ++ "." ++ String.ofList (digits.drop point.toNat)
    else "0." ++ String.ofList (List.replicate (-point).toNat '0' ++ digits)
  else
    let fractional := match digits with
      | first :: second :: rest => String.ofList (first :: '.' :: second :: rest)
      | _ => String.ofList digits
    let power := point - 1
    fractional ++ (if power < 0 then "e-" else "e+") ++ toString power.natAbs

end Colorization.Decimal
