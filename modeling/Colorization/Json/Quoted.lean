import Colorization.Json.Fault

/-! Text between quotation marks in JSON. -/
namespace Colorization.Json

def hexValue? (c : Char) : Option Nat :=
  if '0' ≤ c ∧ c ≤ '9' then some (c.toNat - '0'.toNat)
  else if 'a' ≤ c ∧ c ≤ 'f' then some (c.toNat - 'a'.toNat + 10)
  else if 'A' ≤ c ∧ c ≤ 'F' then some (c.toNat - 'A'.toNat + 10)
  else none

/-- The value of four hexadecimal digits. Four bytes are taken whatever they are. -/
def readUnit (cs : List Char) : Except Fault (Nat × List Char) :=
  let bad : Except Fault (Nat × List Char) :=
    if byteCount cs < 4 then .error (.before .endOfText [])
    else .error ⟨.invalidEscape, byteCount cs - 4⟩
  match cs with
  | a :: b :: c :: d :: rest =>
    match hexValue? a, hexValue? b, hexValue? c, hexValue? d with
    | some a, some b, some c, some d => .ok (((a * 16 + b) * 16 + c) * 16 + d, rest)
    | _, _, _, _ => bad
  | _ => bad

theorem readUnit_shrinks (h : readUnit cs = .ok (value, rest)) : rest.length < cs.length := by
  simp only [readUnit] at h
  split at h
  · split at h
    · cases h; simp; omega
    · split at h <;> cases h
  · split at h <;> cases h

/-- Reads on after the first letter of a Unicode escape. A leading surrogate must be
followed by the escape of a trailing one. -/
def readCodePoint (cs : List Char) : Except Fault (Char × List Char) :=
  match readUnit cs with
  | .error fault => .error fault
  | .ok (unit, rest) =>
    if 0xDC00 ≤ unit ∧ unit ≤ 0xDFFF then .error (.before .loneSurrogate rest)
    else if 0xD800 ≤ unit ∧ unit ≤ 0xDBFF then
      match rest with
      | [] => .error (.before .endOfText [])
      | '\\' :: [] => .error (.before .endOfText [])
      | '\\' :: 'u' :: more =>
        match readUnit more with
        | .error fault => .error fault
        | .ok (low, rest) =>
          if 0xDC00 ≤ low ∧ low ≤ 0xDFFF then
            .ok (Char.ofNat (0x10000 + (unit - 0xD800) * 0x400 + (low - 0xDC00)), rest)
          else .error (.before .loneSurrogate rest)
      | '\\' :: more => .error (.at .unfinishedEscape more)
      | other => .error (.at .unfinishedEscape other)
    else .ok (Char.ofNat unit, rest)

theorem readCodePoint_shrinks (h : readCodePoint cs = .ok (value, rest)) :
    rest.length < cs.length := by
  simp only [readCodePoint] at h
  split at h
  · cases h
  next unit rest' first =>
    have one := readUnit_shrinks first
    split at h
    · cases h
    · split at h
      · split at h
        · cases h
        · cases h
        · split at h
          · cases h
          next low rest'' second =>
            have two := readUnit_shrinks second
            split at h
            · simp only [Except.ok.injEq, Prod.mk.injEq] at h
              obtain ⟨-, rfl⟩ := h
              simp at one
              omega
            · cases h
        · cases h
        · cases h
      · simp only [Except.ok.injEq, Prod.mk.injEq] at h
        exact h.2 ▸ one

/-- Reads on after a backslash. -/
def readEscape (cs : List Char) : Except Fault (Char × List Char) :=
  match cs with
  | [] => .error (.before .endOfText [])
  | c :: rest =>
    if c = '"' ∨ c = '\\' ∨ c = '/' then .ok (c, rest)
    else if c = 'b' then .ok ('\x08', rest)
    else if c = 'f' then .ok ('\x0c', rest)
    else if c = 'n' then .ok ('\n', rest)
    else if c = 'r' then .ok ('\r', rest)
    else if c = 't' then .ok ('\t', rest)
    else if c = 'u' then readCodePoint rest
    else .error (.at .invalidEscape (c :: rest))

theorem readEscape_shrinks (h : readEscape cs = .ok (value, rest)) :
    rest.length < cs.length := by
  simp only [readEscape] at h
  split at h
  · cases h
  next c more =>
    iterate 6
      split at h
      · cases h; simp
    split at h
    · exact Nat.lt_succ_of_lt (readCodePoint_shrinks h)
    · cases h

/-- Reads on after the opening mark; `before` holds what was read, backwards. -/
def readQuoted (before : List Char) (cs : List Char) : Except Fault (String × List Char) :=
  match cs with
  | [] => .error (.before .endOfText [])
  | c :: rest =>
    if c = '"' then .ok (String.ofList before.reverse, rest)
    else if c = '\\' then
      match h : readEscape rest with
      | .error fault => .error fault
      | .ok (escaped, rest') =>
        have := readEscape_shrinks h
        readQuoted (escaped :: before) rest'
    else if c.toNat < 0x20 then .error (.at .controlCharacter (c :: rest))
    else readQuoted (c :: before) rest
termination_by cs.length

theorem readQuoted_shrinks (h : readQuoted before cs = .ok (value, rest)) :
    rest.length < cs.length := by
  fun_induction readQuoted before cs with
  | case1 => cases h
  | case2 => cases h; simp
  | case3 => cases h
  | case4 _ _ _ _ _ shorter _ ih => have := ih h; simp; omega
  | case5 => cases h
  | case6 _ _ _ _ _ _ ih => have := ih h; simp; omega

/-- The escape of one character. -/
def escaped (c : Char) : List Char :=
  if c = '"' then ['\\', '"']
  else if c = '\\' then ['\\', '\\']
  else if c = '\x08' then ['\\', 'b']
  else if c = '\x0c' then ['\\', 'f']
  else if c = '\n' then ['\\', 'n']
  else if c = '\r' then ['\\', 'r']
  else if c = '\t' then ['\\', 't']
  else if c.toNat < 0x20 then
    ['\\', 'u', '0', '0', Nat.digitChar (c.toNat / 16), Nat.digitChar (c.toNat % 16)]
  else [c]

def quoted (s : String) : List Char := '"' :: (s.toList.flatMap escaped ++ ['"'])

end Colorization.Json
