import Mathlib.Data.String.Basic

/-! The bytes of texts. Texts are in the order of their bytes: it makes no difference whether two of
them are compared character by character or byte by byte. A byte of the ASCII range is a character of
its own. -/
namespace Colorization.Text

/-- The bytes of a text in UTF-8. -/
def bytesOf (text : String) : List UInt8 := text.toUTF8.data.toList

theorem bytesOf_eq_flatMap (text : String) : bytesOf text = text.toList.flatMap String.utf8EncodeChar := by
  have encoded := String.toByteArray_ofList (l := text.toList)
  rw [String.ofList_toList] at encoded
  simp [bytesOf, String.toUTF8, encoded, List.utf8Encode]

theorem toNat_of_mem_encoded {c : Char} {byte : UInt8} (member : byte ∈ String.utf8EncodeChar c)
    (small : byte < 0x80) : c.toNat = byte.toNat := by
  have small : byte.toNat < 0x80 := small
  have value : c.toNat = c.val.toNat := rfl
  rw [value]
  simp only [String.utf8EncodeChar] at member
  generalize c.val.toNat = n at member
  repeat' split at member
  all_goals
    simp only [List.mem_cons, List.not_mem_nil, or_false, ← UInt8.toNat_inj, UInt8.toNat_ofNat'] at member
    omega

theorem visible_of_mem_encoded {c : Char} {byte : UInt8} (member : byte ∈ String.utf8EncodeChar c)
    (visible : 0x20 ≤ c.toNat) : 0x20 ≤ byte := by
  rcases Nat.lt_or_ge byte.toNat 0x80 with small | large
  · rwa [toNat_of_mem_encoded member small] at visible
  · exact Nat.le_trans (by decide) large

/-- A greater character has a greater byte at the first place where the encodings differ, whatever
comes after them. -/
theorem encoded_append_lt {c d : Char} (less : c < d) (rest others : List UInt8) :
    String.utf8EncodeChar c ++ rest < String.utf8EncodeChar d ++ others := by
  have below : c.val.toNat < d.val.toNat := UInt32.lt_iff_toNat_lt.mp (Char.lt_def.mp less)
  have bound : d.val.toNat < 0x110000 := by
    rcases d.valid with low | high
    · exact Nat.lt_trans low (by decide)
    · exact high.2
  have twice (k : Nat) : k / 4096 = k / 64 / 64 := by omega
  have thrice (k : Nat) : k / 262144 = k / 64 / 64 / 64 := by omega
  simp only [String.utf8EncodeChar, twice, thrice]
  generalize c.val.toNat = m at below
  generalize d.val.toNat = n at below bound
  -- encodings of unlike lengths differ in the lead byte
  repeat' split
  all_goals
    simp only [List.cons_append, List.nil_append, List.cons_lt_cons_iff, UInt8.lt_iff_toNat_lt,
      ← UInt8.toNat_inj, UInt8.toNat_ofNat']
    omega

theorem flatMap_encoded_lt {first second : List Char} (less : first < second) :
    first.flatMap String.utf8EncodeChar < second.flatMap String.utf8EncodeChar := by
  induction less with
  | @nil c rest =>
    obtain ⟨lead, others, encoded⟩ := List.exists_cons_of_ne_nil (String.utf8EncodeChar_ne_nil (c := c))
    rw [List.flatMap_cons, encoded]
    exact List.nil_lt_cons ..
  | rel less => exact encoded_append_lt less ..
  | cons _ ih => exact List.append_left_lt ih

theorem bytesOf_lt_iff (first second : String) : bytesOf first < bytesOf second ↔ first < second := by
  simp only [bytesOf_eq_flatMap, String.lt_iff_toList_lt]
  constructor
  · intro less
    rcases lt_trichotomy first.toList second.toList with below | same | above
    · exact below
    · rw [same] at less
      exact absurd less (List.lt_irrefl _)
    · exact absurd less (List.lt_asymm (flatMap_encoded_lt above))
  · exact flatMap_encoded_lt

end Colorization.Text
