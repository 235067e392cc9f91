import Colorization.Proofs.Json.Stripped
import Colorization.Proofs.Text.Bytes
import Colorization.Proofs.Token.RoundTrip

/-! The two layouts of a capture are one document: they differ in the gaps between the string literals,
and no text of a token brings a control character into either. -/
namespace Colorization.Capture

/-- A document in both layouts. -/
structure OneDocument (pretty compact : String) : Prop where
  stripped : String.ofList (Json.stripped pretty.toList) = compact
  compact : ∀ byte ∈ Text.bytesOf compact, 0x20 ≤ byte
  literals : ∀ entry ∈ Json.scanned .closed pretty.toList, entry.1 ≠ .closed →
    ∀ byte ∈ String.utf8EncodeChar entry.2, 0x20 ≤ byte
  between : ∀ entry ∈ Json.scanned .closed pretty.toList, entry.1 = .closed →
    ∀ byte ∈ String.utf8EncodeChar entry.2, byte < 0x20 → byte = 0x09 ∨ byte = 0x0A

theorem strips_serialize (capture : Capture) (format : Format) :
    Json.Strips (capture.serialize format).toList (capture.serialize .compact).toList := by
  have spaced : format.layout.Spaced := by
    cases format with
    | pretty => exact Json.Layout.indented_spaced (List.all_eq_true.mp rfl)
    | compact => exact Json.Layout.compact_spaced
  simp only [serialize, Json.write, String.toList_ofList]
  exact Json.strips_written spaced capture.legible 0 0

theorem layouts_one_document (capture : Capture) :
    OneDocument (capture.serialize .pretty) (capture.serialize .compact) where
  stripped := by rw [(capture.strips_serialize .pretty).stripped, String.ofList_toList]
  compact := by
    intro byte member
    rw [Text.bytesOf_eq_flatMap] at member
    obtain ⟨c, inText, encoded⟩ := List.mem_flatMap.mp member
    exact Text.visible_of_mem_encoded encoded ((capture.strips_serialize .compact).visible c inText)
  literals := by
    intro entry member opened byte encoded
    apply Text.visible_of_mem_encoded encoded
    by_contra control
    have gap := (capture.strips_serialize .pretty).controls entry member (Nat.not_le.mp control)
    simp [Json.isGap, opened] at gap
  between := by
    intro entry member _ byte encoded control
    have value : entry.2.toNat = byte.toNat :=
      Text.toNat_of_mem_encoded encoded (UInt8.lt_trans control (by decide))
    have below : entry.2.toNat < 0x20 := value ▸ control
    have gap := (capture.strips_serialize .pretty).controls entry member below
    simp only [Json.isGap, Json.isSpacing, Bool.and_eq_true, Bool.or_eq_true, decide_eq_true_eq] at gap
    rcases gap.2 with (space | tab) | newline
    · rw [space] at below
      exact absurd below (by decide)
    · exact .inl (UInt8.toNat_inj.mp (by rw [← value, tab]; rfl))
    · exact .inr (UInt8.toNat_inj.mp (by rw [← value, newline]; rfl))

end Colorization.Capture
