import Colorization.Proofs.Json.Legible
import Colorization.Text.Utf8
import Colorization.Token.Document

/-! Captures that are written are read back. A capture is written as a legible value, and a
record with the long field names in their order is taken as the token it was made from. -/
namespace Colorization

namespace ThemeColors

theorem legible (colors : ThemeColors) (depth : Nat) : Json.Legible (depth + 1) colors.toJson := by
  apply Json.Legible.object
  · exact List.pairwise_map.mpr colors.sorted
  · intro member inside
    obtain ⟨entry, -, rfl⟩ := List.mem_map.mp inside
    exact .text

end ThemeColors

namespace Token

theorem readColors_toJson (colors : ThemeColors) : readColors colors.toJson = .ok colors := by
  have pairs : ∀ entries : List (String × String),
      (entries.map fun entry => (entry.1, Json.text entry.2)).mapM (fun member => do
        let color ← readText member.2
        return (member.1, color)) = (.ok entries : Except RecordFault _) := by
    intro entries
    induction entries with
    | nil => rfl
    | cons entry rest ih =>
      rw [List.map_cons, List.mapM_cons, ih]
      rfl
  simp only [readColors, ThemeColors.toJson, pairs]
  exact congrArg Except.ok (Dict.ofList_entries colors)

theorem legible (token : Token) (depth : Nat) : Json.Legible (depth + 2) token.toJson := by
  apply Json.Legible.object
  · have names : Field.all.Pairwise fun a b => a.name < b.name := by decide
    simpa [Field.all, Entries.Sorted] using names
  · simp only [List.mem_cons, List.not_mem_nil, or_false]
    rintro _ (rfl | rfl | rfl)
    · exact .text
    · exact .text
    · exact token.themeColors.legible depth

theorem ofJson_toJson (token : Token) : ofJson token.toJson = .ok token := by
  have content : Field.ofKey? Field.content.name = some .content := by decide
  have scope : Field.ofKey? Field.scope.name = some .scope := by decide
  have themeColors : Field.ofKey? Field.themeColors.name = some .themeColors := by decide
  simp only [ofJson, toJson, List.foldlM_cons, List.foldlM_nil, Draft.add, Draft.empty, Draft.has,
    content, scope, themeColors, readText, readColors_toJson]
  rfl

end Token

namespace Capture

theorem ofItems_toJson (capture : Capture) (index : Nat) :
    ofItems index (capture.map Token.toJson) = .ok capture := by
  induction capture generalizing index with
  | nil => rfl
  | cons token rest ih =>
    simp only [List.map_cons, ofItems, Token.ofJson_toJson, ih]
    rfl

theorem legible (capture : Capture) : Json.Legible Json.depthLimit capture.toJson := by
  apply Json.Legible.array
  intro item inside
  obtain ⟨token, -, rfl⟩ := List.mem_map.mp inside
  exact token.legible 124

theorem layout_blank (format : Format) : format.layout.Blank := by
  cases format with
  | pretty =>
    apply Json.Layout.indented_blank
    intro c member
    cases List.mem_singleton.mp member
    rfl
  | compact => exact Json.Layout.compact_blank

/-- What is written in either format reads back as the capture that was written. -/
theorem deserialize_serialize (capture : Capture) (format : Format) :
    deserialize (capture.serialize format) = .ok capture := by
  rw [deserialize, serialize, Json.read_write (layout_blank format) capture.legible]
  exact ofItems_toJson capture 0

/-- The bytes of a serialized capture are text, and the text is a document of the capture. -/
theorem serialize_read_back (capture : Capture) (format : Format) :
    Text.ofBytes (capture.serialize format).toUTF8 = .ok (capture.serialize format) ∧
      deserialize (capture.serialize format) = .ok capture :=
  ⟨Text.ofBytes_toUTF8 _, deserialize_serialize capture format⟩

end Capture

end Colorization
