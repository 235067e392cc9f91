/-! Texts in UTF-8: where bytes cease to be one, and the text that is left of bytes that
are none. Bytes are taken one character at a time; the lead byte tells how many follow and
what the first of these may be. -/
namespace Colorization.Text

/-- Why bytes are no text: from `index` on, `length` bytes begin no character, or the
bytes end before one is complete. -/
structure Utf8Fault where
  index : Nat
  length : Option Nat
deriving DecidableEq

def Utf8Fault.message (fault : Utf8Fault) : String :=
  match fault.length with
  | some length => s!"invalid utf-8 sequence of {length} bytes from index {fault.index}"
  | none => s!"incomplete utf-8 byte sequence from index {fault.index}"

namespace Utf8

/-- What follows a lead byte: the number of bytes and the bounds of the first of them. -/
structure Tail where
  count : Nat
  low : UInt8
  high : UInt8

def Tail.ofLead? (lead : UInt8) : Option Tail :=
  if lead < 0xC2 then none
  else if lead < 0xE0 then some ⟨1, 0x80, 0xBF⟩
  else if lead = 0xE0 then some ⟨2, 0xA0, 0xBF⟩
  else if lead = 0xED then some ⟨2, 0x80, 0x9F⟩
  else if lead < 0xF0 then some ⟨2, 0x80, 0xBF⟩
  else if lead = 0xF0 then some ⟨3, 0x90, 0xBF⟩
  else if lead < 0xF4 then some ⟨3, 0x80, 0xBF⟩
  else if lead = 0xF4 then some ⟨3, 0x80, 0x8F⟩
  else none

/-- What stands at the beginning of some bytes. -/
inductive Head where
  | char (length : Nat) (value : Char)
  | broken (length : Nat)
  | cut

/-- Goes through the bytes after a lead; `value` is the number read so far. -/
def follow (seen value : Nat) (low high : UInt8) : Nat → List UInt8 → Head
  | 0, _ => .char seen (Char.ofNat value)
  | _ + 1, [] => .cut
  | count + 1, byte :: rest =>
    if low ≤ byte ∧ byte ≤ high then
      follow (seen + 1) (64 * value + byte.toNat % 64) 0x80 0xBF count rest
    else .broken seen

def Head.of (lead : UInt8) (rest : List UInt8) : Head :=
  if lead < 0x80 then .char 1 (Char.ofNat lead.toNat)
  else
    match Tail.ofLead? lead with
    | none => .broken 1
    | some tail =>
      follow 1 (lead.toNat % Nat.pow 2 (6 - tail.count)) tail.low tail.high tail.count rest

/-- The first fault of the bytes, the first of which has the number `index`. -/
def fault? (index : Nat) : List UInt8 → Option Utf8Fault
  | [] => none
  | lead :: rest =>
    match Head.of lead rest with
    | .char length _ => fault? (index + length) (rest.drop (length - 1))
    | .broken length => some ⟨index, some length⟩
    | .cut => some ⟨index, none⟩
termination_by bytes => bytes.length
decreasing_by
  simp only [List.length_drop, List.length_cons]
  omega

/-- The characters of the bytes, with U+FFFD for each broken or cut one. -/
def lossy : List UInt8 → List Char
  | [] => []
  | lead :: rest =>
    match Head.of lead rest with
    | .char length value => value :: lossy (rest.drop (length - 1))
    | .broken length => '\uFFFD' :: lossy (rest.drop (length - 1))
    | .cut => ['\uFFFD']
termination_by bytes => bytes.length
decreasing_by
  all_goals
    simp only [List.length_drop, List.length_cons]
    omega

end Utf8

/-- The text that the bytes are. -/
def ofBytes (bytes : ByteArray) : Except Utf8Fault String :=
  match String.fromUTF8? bytes with
  | some text => .ok text
  | none => .error ((Utf8.fault? 0 bytes.toList).getD ⟨0, none⟩)

theorem ofBytes_toUTF8 (text : String) : ofBytes text.toUTF8 = .ok text := by
  have back : String.fromUTF8? text.toUTF8 = some text := by
    simp [String.fromUTF8?, text.isValidUTF8, String.fromUTF8]
  rw [ofBytes, back]

/-- The text of bytes of which some may belong to no character. -/
def lossy (bytes : ByteArray) : List Char := Utf8.lossy bytes.toList

end Colorization.Text
