import Colorization.Decimal.Shortest

/-! What a plain YAML scalar means: null, a truth value, a number or a text. -/
namespace Colorization.Yaml

inductive Meaning where
  | null
  | bool (value : Bool)
  | integer (value : Int)
  | real (negative : Bool) (magnitude : Decimal.Binary64)
  | infinity (negative : Bool)
  | notANumber
  | text
deriving DecidableEq

def isNull (s : String) : Bool := s = "" || s = "~" || s = "null" || s = "Null" || s = "NULL"

def bool? (s : String) : Option Bool :=
  if s = "true" ∨ s = "True" ∨ s = "TRUE" then some true
  else if s = "false" ∨ s = "False" ∨ s = "FALSE" then some false
  else none

def digit? (base : Nat) (c : Char) : Option Nat :=
  let value :=
    if '0' ≤ c ∧ c ≤ '9' then c.toNat - '0'.toNat
    else if 'a' ≤ c ∧ c ≤ 'z' then c.toNat - 'a'.toNat + 10
    else if 'A' ≤ c ∧ c ≤ 'Z' then c.toNat - 'A'.toNat + 10
    else base
  if value < base then some value else none

/-- The value of one or more digits. -/
def natural? (base : Nat) (cs : List Char) : Option Nat :=
  if cs.isEmpty then none
  else cs.foldlM (fun sum c => (digit? base c).map (sum * base + ·)) 0

def withoutSign : List Char → List Char
  | '+' :: rest => rest
  | '-' :: rest => rest
  | cs => cs

/-- More than one digit with a zero in front is a text. -/
def leadingZero (cs : List Char) : Bool :=
  match withoutSign cs with
  | '0' :: c :: rest => (c :: rest).all Char.isDigit
  | _ => false

/-- A number without sign in base ten, or with a mark in base two, eight or sixteen. -/
def unsigned? (cs : List Char) : Option Nat :=
  match cs with
  | '0' :: 'x' :: rest => natural? 16 rest
  | '0' :: 'o' :: rest => natural? 8 rest
  | '0' :: 'b' :: rest => natural? 2 rest
  | _ => natural? 10 cs

/-- Whole numbers of at most 128 bits. -/
def integer? (cs : List Char) : Option Int :=
  if leadingZero cs then none
  else
    match cs with
    | '-' :: rest => do
      let value ← unsigned? rest
      if value ≤ Nat.pow 2 127 then some (-value) else none
    | '+' :: rest => do
      let value ← unsigned? rest
      if value < Nat.pow 2 128 then some value else none
    | _ => do
      let value ← unsigned? cs
      if value < Nat.pow 2 128 then some value else none

/-- The power of ten after the mantissa, zero if there is none. -/
def power? : List Char → Option Int
  | [] => some 0
  | c :: rest =>
    if c = 'e' ∨ c = 'E' then
      match rest with
      | '-' :: digits => (natural? 10 digits).map fun n => -n
      | '+' :: digits => (natural? 10 digits).map Int.ofNat
      | digits => (natural? 10 digits).map Int.ofNat
    else none

/-- A decimal without sign: digits with at most one point among or around them. -/
def decimal? (cs : List Char) : Option Decimal.Binary64 := do
  let whole := cs.takeWhile Char.isDigit
  let (fraction, rest) :=
    match cs.dropWhile Char.isDigit with
    | '.' :: rest => (rest.takeWhile Char.isDigit, rest.dropWhile Char.isDigit)
    | rest => ([], rest)
  let digits ← natural? 10 (whole ++ fraction)
  let power ← power? rest
  Decimal.Binary64.ofDecimal? digits (power - fraction.length)

def infinityNames : List String := [".inf", ".Inf", ".INF"]
def notANumberNames : List String := [".nan", ".NaN", ".NAN"]

def real? (cs : List Char) : Option Meaning :=
  let negative := cs.head? = some '-'
  let magnitude := withoutSign cs
  if infinityNames.contains (String.ofList magnitude) then some (.infinity negative)
  else if notANumberNames.contains (String.ofList cs) then some .notANumber
  else (decimal? magnitude).map (.real negative)

def Meaning.ofPlain (s : String) : Meaning :=
  if isNull s then .null
  else
    match bool? s with
    | some value => .bool value
    | none =>
      match integer? s.toList with
      | some value => .integer value
      | none => if leadingZero s.toList then .text else (real? s.toList).getD .text

/-- Texts that a plain scalar cannot stand for. -/
def needsQuotes (s : String) : Bool := leadingZero s.toList || Meaning.ofPlain s != .text

end Colorization.Yaml
