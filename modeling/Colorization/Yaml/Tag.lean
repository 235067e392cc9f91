import Colorization.Yaml.Lexeme

/-! Directives, tags and anchors. -/
namespace Colorization.Yaml

def uriMarks : List Char :=
  [';', '/', '?', ':', '@', '&', '=', '+', '$', '.', '%', '!', '~', '*', '\x27', '(', ')']

def isUriChar (brackets : Bool) (c : Char) : Bool :=
  isWordChar c || uriMarks.contains c || brackets && (c = ',' || c = '[' || c = ']')

def hexPair? : List Char → Option Nat
  | '%' :: high :: low :: _ =>
    if high.isDigit || ('a' ≤ high.toLower && high.toLower ≤ 'f') then
      if low.isDigit || ('a' ≤ low.toLower && low.toLower ≤ 'f') then
        let value (c : Char) := if c.isDigit then c.toNat - 48 else c.toLower.toNat - 87
        some (value high * 16 + value low)
      else none
    else none
  | _ => none

/-- The number of bytes of a character that begins with `byte`, and the bits that the
byte contributes. -/
def leadByte? (byte : Nat) : Option (Nat × Nat) :=
  if byte < 0x80 then some (1, byte)
  else if 0xC0 ≤ byte ∧ byte < 0xE0 then some (2, byte % 0x20)
  else if 0xE0 ≤ byte ∧ byte < 0xF0 then some (3, byte % 0x10)
  else if 0xF0 ≤ byte ∧ byte < 0xF8 then some (4, byte % 8)
  else none

/-- The further bytes of an escaped character. -/
def trailBytes? (value : Nat) (cs : List Char) : Nat → Option (Nat × List Char)
  | 0 => some (value, cs)
  | n + 1 => do
    let byte ← hexPair? cs
    if 0x80 ≤ byte ∧ byte < 0xC0 then trailBytes? (value * 0x40 + byte % 0x40) (cs.drop 3) n
    else none

/-- A character written as the escapes of its bytes, and how many bytes it has. -/
def uriEscape? (cs : List Char) : Option (Char × Nat) := do
  let byte ← hexPair? cs
  let (width, value) ← leadByte? byte
  let (value, _) ← trailBytes? value (cs.drop 3) (width - 1)
  return (Char.ofNat value, width)

def decodeUri : Nat → List Char → Option (List Char)
  | 0, _ => some []
  | _, [] => some []
  | fuel + 1, c :: rest =>
    if c = '%' then do
      let (point, width) ← uriEscape? (c :: rest)
      let others ← decodeUri fuel ((c :: rest).drop (3 * width))
      return point :: others
    else do
      let others ← decodeUri fuel rest
      return c :: others

def uri? (brackets : Bool) (cursor : Cursor) : Option (List Char × Cursor) := do
  let (raw, cursor) := cursor.span (isUriChar brackets)
  let text ← decodeUri raw.length raw
  return (text, cursor)

/-- `!`, `!!` or `!word!`; a word without the second mark is taken too. -/
def handle? (cursor : Cursor) : Option (List Char × Cursor) :=
  if cursor.next? = some '!' then
    let (word, cursor) := (cursor.skip 1).span isWordChar
    if cursor.next? = some '!' then some ('!' :: word ++ ['!'], cursor.skip 1)
    else some ('!' :: word, cursor)
  else none

/-- A tag as a handle and a suffix. A tag without a handle has the empty one. -/
def tag? (cursor : Cursor) : Option (String × String × Cursor) := do
  let (handle, suffix, cursor) ←
    if cursor.rest.take 2 = ['!', '<'] then do
      let (suffix, cursor) ← uri? true (cursor.skip 2)
      if suffix.isEmpty ∨ cursor.next? ≠ some '>' then none
      else some ([], suffix, cursor.skip 1)
    else do
      let (handle, cursor) ← handle? cursor
      if handle.length > 1 ∧ handle.getLast? = some '!' then
        let (suffix, cursor) ← uri? false cursor
        if suffix.isEmpty then none else some (handle, suffix, cursor)
      else
        let (more, cursor) ← uri? false cursor
        let suffix := handle.drop 1 ++ more
        if suffix.isEmpty then some ([], ['!'], cursor) else some (['!'], suffix, cursor)
  return (String.ofList handle, String.ofList suffix, cursor)

def number? (cursor : Cursor) : Option (Nat × Cursor) :=
  let (digits, cursor) := cursor.span Char.isDigit
  if digits.isEmpty ∨ 9 < digits.length then none
  else some (digits.foldl (fun n c => n * 10 + (c.toNat - '0'.toNat)) 0, cursor)

def versionDirective? (cursor : Cursor) : Option (Kind × Cursor) := do
  let (major, cursor) ← number? (cursor.skipWhile isBlank)
  if cursor.next? ≠ some '.' then none
  let (minor, cursor) ← number? (cursor.skip 1)
  return (.version major minor, cursor)

def tagDirective? (cursor : Cursor) : Option (Kind × Cursor) := do
  let (handle, cursor) ← handle? (cursor.skipWhile isBlank)
  if handle.length > 1 ∧ handle.getLast? ≠ some '!' then none
  if !cursor.next?.any isBlank then none
  let (uri, cursor) ← uri? true (cursor.skipWhile isBlank)
  if uri.isEmpty ∨ !gapNext cursor.rest then none
  return (.tagHandle (String.ofList handle) (String.ofList uri), cursor)

/-- A directive with the rest of its line. -/
def directive? (cursor : Cursor) : Option (Kind × Cursor) := do
  let (name, cursor) := (cursor.skip 1).span isWordChar
  if !gapNext cursor.rest then none
  let (kind, cursor) ←
    if name = "YAML".toList then versionDirective? cursor
    else if name = "TAG".toList then tagDirective? cursor
    else none
  return (kind, ← cursor.finishLine?)

def followsName (c : Char) : Bool :=
  isGap c || c = '?' || c = ':' || c = ',' || c = ']' || c = '\x7d' || c = '%' || c = '@' ||
    c = '\x60'

/-- The name after the mark of an anchor or an alias. -/
def anchorName? (cursor : Cursor) : Option (String × Cursor) :=
  let (name, cursor) := (cursor.skip 1).span isWordChar
  if name.isEmpty ∨ !cursor.next?.all followsName then none
  else some (String.ofList name, cursor)

end Colorization.Yaml
