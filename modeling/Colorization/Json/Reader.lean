import Colorization.Json.Number
import Colorization.Json.Quoted

/-! Reading JSON text. A reader takes at least one character on success, so repeated
reading ends. Nesting is limited: the 128th open array or object is refused. -/
namespace Colorization.Json

def blank (c : Char) : Bool := c = ' ' || c = '\t' || c = '\n' || c = '\r'

def skipBlank (cs : List Char) : List Char := cs.dropWhile blank

theorem length_skipBlank_le (cs : List Char) : (skipBlank cs).length ≤ cs.length :=
  (List.dropWhile_suffix blank).length_le

structure Reader (α : Type) where
  run : List Char → Except Fault (α × List Char)
  shrinks : ∀ {cs value rest}, run cs = .ok (value, rest) → rest.length < cs.length

/-- How items follow each other up to a closing mark. -/
structure Series where
  close : Char
  atEnd : Cause
  between : Cause

namespace Series

def array : Series := ⟨']', .endOfList, .expectedCommaOrBracket⟩
def object : Series := ⟨'\x7d', .endOfObject, .expectedCommaOrBrace⟩

/-- The items after the first one; `before` holds the earlier ones, backwards. -/
def readMore (series : Series) (item : Reader α) (before : List α) (cs : List Char) :
    Except Fault (List α × List Char) :=
  match h : skipBlank cs with
  | [] => .error (.before series.atEnd [])
  | c :: rest =>
    if c = series.close then .ok (before.reverse, rest)
    else if c = ',' then
      match h' : skipBlank rest with
      | [] => .error (.before .endOfValue [])
      | next :: more =>
        if next = series.close then .error (.at .trailingComma (next :: more))
        else
          match h'' : item.run (next :: more) with
          | .error fault => .error fault
          | .ok (value, rest') =>
            have : rest'.length < cs.length := by
              have outer := length_skipBlank_le cs
              have inner := length_skipBlank_le rest
              have taken := item.shrinks h''
              rw [h] at outer
              rw [h'] at inner
              simp at outer inner taken
              omega
            readMore series item (value :: before) rest'
    else .error (.at series.between (c :: rest))
termination_by cs.length

theorem readMore_shrinks {series : Series} {item : Reader α} {before : List α}
    (h : series.readMore item before cs = .ok (value, rest)) : rest.length < cs.length := by
  fun_induction readMore series item before cs with
  | case1 => cases h
  | case2 before cs more started =>
    have := length_skipBlank_le cs
    cases h
    rw [started] at this
    simp at this
    omega
  | case3 => cases h
  | case4 => cases h
  | case5 => cases h
  | case6 _ _ _ _ _ _ _ _ _ _ _ shorter _ ih => have := ih h; omega
  | case7 => cases h

/-- Reads on after the opening mark. -/
def readItems (series : Series) (item : Reader α) (cs : List Char) :
    Except Fault (List α × List Char) :=
  match skipBlank cs with
  | [] => .error (.before series.atEnd [])
  | c :: rest =>
    if c = series.close then .ok ([], rest)
    else
      match item.run (c :: rest) with
      | .error fault => .error fault
      | .ok (value, rest') => series.readMore item [value] rest'

theorem readItems_shrinks {series : Series} {item : Reader α}
    (h : series.readItems item cs = .ok (value, rest)) : rest.length < cs.length := by
  have skipped := length_skipBlank_le cs
  simp only [readItems] at h
  split at h
  · cases h
  next c more started =>
    rw [started] at skipped
    split at h
    · cases h
      simp at skipped
      omega
    · split at h
      · cases h
      next taken =>
        have := item.shrinks taken
        have := readMore_shrinks h
        omega

end Series

/-- A key, a colon and a value. -/
def readMember (value : Reader Json) (cs : List Char) :
    Except Fault ((String × Json) × List Char) :=
  match cs with
  | '"' :: rest =>
    match readQuoted [] rest with
    | .error fault => .error fault
    | .ok (key, rest) =>
      match skipBlank rest with
      | [] => .error (.before .endOfObject [])
      | ':' :: rest =>
        match value.run rest with
        | .error fault => .error fault
        | .ok (found, rest) => .ok ((key, found), rest)
      | other => .error (.at .expectedColon other)
  | other => .error (.at .keyNotText other)

theorem readMember_shrinks {value : Reader Json}
    (h : readMember value cs = .ok (found, rest)) : rest.length < cs.length := by
  simp only [readMember] at h
  split at h
  · split at h
    · cases h
    next keyRead =>
      have key := readQuoted_shrinks keyRead
      split at h
      · cases h
      next colon =>
        have skipped := colon ▸ length_skipBlank_le _
        split at h
        · cases h
        next valueRead =>
          have taken := value.shrinks valueRead
          cases h
          simp at skipped ⊢
          omega
      · cases h
  · cases h

def member (value : Reader Json) : Reader (String × Json) := ⟨readMember value, readMember_shrinks⟩

/-- The rest of a word whose first letter was read. -/
def readWord (result : Json) : List Char → List Char → Except Fault (Json × List Char)
  | [], cs => .ok (result, cs)
  | _ :: _, [] => .error (.before .endOfValue [])
  | c :: word, d :: rest =>
    if c = d then readWord result word rest else .error (.at .expectedWord (d :: rest))

theorem readWord_length_le (h : readWord result word cs = .ok (value, rest)) :
    rest.length ≤ cs.length := by
  induction word generalizing cs with
  | nil => cases h; simp
  | cons c word ih =>
    cases cs with
    | nil => cases h
    | cons d more =>
      simp only [readWord] at h
      split at h
      · have := ih h; simp; omega
      · cases h

/-- The items of arrays and the values of objects are read by `inner`; without it no
array or object may be opened. -/
def readValueWith (inner : Option (Reader Json)) (cs : List Char) :
    Except Fault (Json × List Char) :=
  match skipBlank cs with
  | [] => .error (.before .endOfValue [])
  | c :: rest =>
    if c = 'n' then readWord .null "ull".toList rest
    else if c = 't' then readWord (.bool true) "rue".toList rest
    else if c = 'f' then readWord (.bool false) "alse".toList rest
    else if c = '"' then
      match readQuoted [] rest with
      | .error fault => .error fault
      | .ok (value, rest) => .ok (.text value, rest)
    else if c = '-' ∨ c.isDigit then
      match readNumber (c = '-') (if c = '-' then rest else c :: rest) with
      | .error fault => .error fault
      | .ok (value, rest) => .ok (.number value, rest)
    else if c = '[' then
      match inner with
      | none => .error (.at .tooDeep (c :: rest))
      | some inner =>
        match Series.array.readItems inner rest with
        | .error fault => .error fault
        | .ok (items, rest) => .ok (.array items, rest)
    else if c = '\x7b' then
      match inner with
      | none => .error (.at .tooDeep (c :: rest))
      | some inner =>
        match Series.object.readItems (member inner) rest with
        | .error fault => .error fault
        | .ok (members, rest) => .ok (.object (Entries.ofList members), rest)
    else .error (.at .expectedValue (c :: rest))

theorem readValueWith_shrinks {inner : Option (Reader Json)}
    (h : readValueWith inner cs = .ok (value, rest)) : rest.length < cs.length := by
  have skipped := length_skipBlank_le cs
  simp only [readValueWith] at h
  split at h
  · cases h
  next c more started =>
    rw [started] at skipped
    simp only [List.length_cons] at skipped
    iterate 3
      split at h
      · have := readWord_length_le h; omega
    split at h
    · split at h
      · cases h
      next taken => have := readQuoted_shrinks taken; cases h; omega
    split at h
    · split at h
      · cases h
      next taken =>
        have := readNumber_shrinks taken
        cases h
        split at this
        · omega
        · simp at this; omega
    split at h
    · split at h
      · cases h
      · split at h
        · cases h
        next taken => have := Series.readItems_shrinks taken; cases h; omega
    split at h
    · split at h
      · cases h
      · split at h
        · cases h
        next taken => have := Series.readItems_shrinks taken; cases h; omega
    · cases h

/-- Values with at most `depth` arrays and objects open at once. -/
def readValue : (depth : Nat) → Reader Json
  | 0 => ⟨readValueWith none, readValueWith_shrinks⟩
  | depth + 1 => ⟨readValueWith (some (readValue depth)), readValueWith_shrinks⟩

def depthLimit : Nat := 127

/-- One value with nothing but blanks around it. -/
def readDocument (cs : List Char) : Except Fault Json :=
  match (readValue depthLimit).run cs with
  | .error fault => .error fault
  | .ok (value, rest) =>
    match skipBlank rest with
    | [] => .ok value
    | other => .error (.at .trailingText other)

def read (text : String) : Except ReadError Json :=
  (readDocument text.toList).mapError (Fault.locate text)

end Colorization.Json
