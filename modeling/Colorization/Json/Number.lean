import Colorization.Json.Fault
import Colorization.Json.Value

/-! Numbers in JSON text. Digits are gathered into an integer of 64 bits; digits of
the whole part that no longer fit count as powers of ten, those of the fraction are
dropped. The scaling by powers of ten rounds once for each factor. -/
namespace Colorization.Json

open Decimal

def digitValue (c : Char) : Nat := c.toNat - '0'.toNat

/-- Appends digits to `significand` as long as it stays below `limit`: the sum and
the digits left over. -/
def gather (limit significand : Nat) : List Char → Nat × List Char
  | [] => (significand, [])
  | c :: rest =>
    let next := significand * 10 + digitValue c
    if next < limit then gather limit next rest else (significand, c :: rest)

/-- The nearest value to a power of ten. -/
def tenTo (power : Nat) : Binary64 := (Binary64.round? (Nat.pow 10 power) 1).getD Binary64.zero

def divide (x y : Binary64) : Binary64 := (x.div? y).getD Binary64.zero

def scaleDown (power : Nat) (x : Binary64) : Binary64 :=
  if power ≤ 308 then divide x (tenTo power)
  else if x.mantissa = 0 then x
  else scaleDown (power - 308) (divide x (tenTo 308))
termination_by power
decreasing_by omega

/-- `none` past the largest value. -/
def scaleTen? (significand : Nat) (exponent : Int) : Option Binary64 :=
  let start := (Binary64.round? significand 1).getD Binary64.zero
  if exponent < 0 then some (scaleDown (-exponent).toNat start)
  else if exponent ≤ 308 then start.mul? (tenTo exponent.toNat)
  else if significand = 0 then some start
  else none

def finishReal (negative : Bool) (significand : Nat) (exponent : Int) (rest : List Char) :
    Except Fault (Number × List Char) :=
  match scaleTen? significand exponent with
  | some magnitude => .ok (.real negative magnitude, rest)
  | none => .error (.before .numberOutOfRange rest)

theorem rest_of_finishReal (h : finishReal negative significand exponent cs = .ok (value, rest)) :
    rest = cs := by
  simp only [finishReal] at h
  split at h <;> cases h
  rfl

theorem length_dropDigits_le (cs : List Char) :
    (cs.dropWhile Char.isDigit).length ≤ cs.length :=
  (List.dropWhile_suffix Char.isDigit).length_le

/-- What comes after the sign of an exponent, if it has one. -/
def unsigned : List Char → List Char
  | '+' :: rest => rest
  | '-' :: rest => rest
  | rest => rest

theorem length_unsigned_le (cs : List Char) : (unsigned cs).length ≤ cs.length := by
  unfold unsigned
  split <;> simp

/-- Reads on after the letter of the exponent. -/
def readExponent (negative : Bool) (significand : Nat) (exponent : Int) (cs : List Char) :
    Except Fault (Number × List Char) :=
  let shrinking := cs.head? = some '-'
  let digits := unsigned cs
  match digits with
  | [] => .error (.before .endOfValue [])
  | c :: more =>
    if c.isDigit then
      let written := digits.takeWhile Char.isDigit
      let rest := digits.dropWhile Char.isDigit
      let (power, excess) := gather (Nat.pow 2 31) 0 written
      if excess = [] then
        finishReal negative significand (if shrinking then exponent - power else exponent + power)
          rest
      else if significand ≠ 0 ∧ ¬shrinking then
        .error (.before .numberOutOfRange (excess.drop 1 ++ rest))
      else .ok (.real negative Binary64.zero, rest)
    else .error (.at .invalidNumber (c :: more))

theorem readExponent_shrinks (h : readExponent negative significand exponent cs = .ok (value, rest)) :
    rest.length < cs.length := by
  have unsigned := length_unsigned_le cs
  simp only [readExponent] at h
  split at h
  · cases h
  next c more digits =>
    rw [digits] at unsigned
    have dropped := length_dropDigits_le more
    split at h
    next digit =>
      simp only [digits, List.dropWhile_cons, digit, if_true] at h
      split at h
      · rw [rest_of_finishReal h]
        simp at unsigned
        omega
      · split at h
        · cases h
        · cases h
          simp at unsigned
          omega
    · cases h

def readPower (negative : Bool) (significand : Nat) (exponent : Int) (cs : List Char) :
    Except Fault (Number × List Char) :=
  match cs with
  | 'e' :: rest => readExponent negative significand exponent rest
  | 'E' :: rest => readExponent negative significand exponent rest
  | _ => finishReal negative significand exponent cs

theorem readPower_length_le (h : readPower negative significand exponent cs = .ok (value, rest)) :
    rest.length ≤ cs.length := by
  simp only [readPower] at h
  split at h
  · have := readExponent_shrinks h; simp; omega
  · have := readExponent_shrinks h; simp; omega
  · exact Nat.le_of_eq (congrArg List.length (rest_of_finishReal h))

/-- Reads on after the decimal point. -/
def readFraction (negative : Bool) (significand : Nat) (exponent : Int) (cs : List Char) :
    Except Fault (Number × List Char) :=
  match cs.takeWhile Char.isDigit with
  | [] => .error (.at (if cs = [] then .endOfValue else .invalidNumber) cs)
  | written =>
    let (significand, excess) := gather (Nat.pow 2 64) significand written
    readPower negative significand (exponent - (written.length - excess.length : Int))
      (cs.dropWhile Char.isDigit)

theorem readFraction_length_le
    (h : readFraction negative significand exponent cs = .ok (value, rest)) :
    rest.length ≤ cs.length := by
  simp only [readFraction] at h
  split at h
  · cases h
  · exact Nat.le_trans (readPower_length_le h) (length_dropDigits_le cs)

/-- A whole number has no fraction, no exponent and fits; minus zero is not whole. -/
def whole? (negative : Bool) (significand : Nat) : Option Int :=
  if negative then
    if 0 < significand ∧ significand ≤ Nat.pow 2 63 then some (-significand) else none
  else some significand

/-- Reads a number from its first digit on. -/
def readNumber (negative : Bool) (cs : List Char) : Except Fault (Number × List Char) :=
  match cs with
  | [] => .error (.before .endOfValue [])
  | c :: more =>
    if ¬c.isDigit then .error (.at .invalidNumber cs)
    else if c = '0' ∧ (more.head?.any Char.isDigit) then .error (.at .invalidNumber more)
    else
      let rest := cs.dropWhile Char.isDigit
      let (significand, excess) := gather (Nat.pow 2 64) 0 (cs.takeWhile Char.isDigit)
      match rest with
      | '.' :: fraction => readFraction negative significand excess.length fraction
      | 'e' :: _ => readPower negative significand excess.length rest
      | 'E' :: _ => readPower negative significand excess.length rest
      | _ =>
        match excess, whole? negative significand with
        | [], some value => .ok (.integer value, rest)
        | _, _ => finishReal negative significand excess.length rest

theorem readNumber_shrinks (h : readNumber negative cs = .ok (value, rest)) :
    rest.length < cs.length := by
  simp only [readNumber] at h
  split at h
  · cases h
  next c more =>
    split at h
    · cases h
    next digit =>
      have digit : c.isDigit := by simpa using digit
      have dropped := length_dropDigits_le more
      split at h
      · cases h
      · simp only [List.dropWhile_cons, digit, if_true] at h
        split at h
        next point =>
          have := readFraction_length_le h
          simp [point] at dropped ⊢
          omega
        next letter => have := readPower_length_le h; simp; omega
        next letter => have := readPower_length_le h; simp; omega
        next =>
          split at h
          · cases h; simp; omega
          · rw [rest_of_finishReal h]
            simp
            omega

end Colorization.Json
