import Colorization.Proofs.Json.Extension
import Colorization.Proofs.Token.RoundTrip

/-! Damaged captures. A capture is written as an array, and an array is not over before its
last bracket; behind the bracket nothing but blanks may follow. -/
namespace Colorization.Capture

theorem takes_serialize (capture : Capture) (format : Format) :
    (Json.readValue Json.depthLimit).Takes (capture.serialize format).toList capture.toJson := by
  intro rest
  rw [serialize, Json.write, String.toList_ofList]
  exact Json.readValue_written (layout_blank format) capture.legible 0 rest

theorem serialize_opens (capture : Capture) (format : Format) :
    ∃ tail, (capture.serialize format).toList = '[' :: tail := by
  rw [serialize, Json.write, String.toList_ofList, toJson, Json.written]
  exact Json.bracketed_opens ..

theorem ofJson_toJson (capture : Capture) : ofJson capture.toJson = .ok capture :=
  ofItems_toJson capture 0

theorem deserialize_eq_ok_iff (text : String) (capture : Capture) :
    deserialize text = .ok capture ↔
      ∃ value, Json.readDocument text.toList = .ok value ∧ ofJson value = .ok capture := by
  unfold deserialize Json.read
  cases Json.readDocument text.toList <;> simp [Except.mapError]

theorem blank_iff (c : Char) : Json.blank c = true ↔ c ∈ [' ', '\t', '\n', '\r'] := by
  simp [Json.blank, or_assoc]

/-- A cut capture is refused wherever it was cut. -/
theorem deserialize_cut {capture : Capture} {format : Format} {cut lost : String}
    (whole : capture.serialize format = cut ++ lost) (proper : lost ≠ "") :
    ∃ fault, deserialize cut = .error fault := by
  have read := takes_serialize capture format []
  obtain ⟨tail, opens⟩ := serialize_opens capture format
  rw [List.append_nil, whole, String.toList_append] at read
  rw [whole, String.toList_append] at opens
  obtain ⟨fault, refused⟩ : ∃ fault, Json.readDocument cut.toList = .error fault := by
    apply Json.readDocument_cut read (by simpa using proper)
    intro started
    obtain ⟨c, rest, begins⟩ := List.exists_cons_of_ne_nil started
    rw [begins, List.cons_append, List.cons.injEq] at opens
    obtain ⟨rfl, -⟩ := opens
    exact ⟨rest, by rw [begins, Json.skipBlank_cons (by decide)]⟩
  exact ⟨.unreadable (fault.locate cut), by simp [deserialize, Json.read, refused, Except.mapError]⟩

theorem deserialize_followed (capture : Capture) (format : Format) (more : String)
    (other : Capture) :
    deserialize (capture.serialize format ++ more) = .ok other ↔
      (∀ c ∈ more.toList, c ∈ [' ', '\t', '\n', '\r']) ∧ other = capture := by
  rw [deserialize_eq_ok_iff, String.toList_append]
  simp only [Json.readDocument_followed (takes_serialize capture format), ← blank_iff]
  constructor
  · rintro ⟨value, ⟨blanks, rfl⟩, taken⟩
    rw [ofJson_toJson] at taken
    cases taken
    exact ⟨blanks, rfl⟩
  · rintro ⟨blanks, rfl⟩
    exact ⟨_, ⟨blanks, rfl⟩, ofJson_toJson other⟩

/-- Every cut is refused, and text behind a capture is refused unless it is blank; then the
capture is what was written. -/
theorem damaged_refused (capture : Capture) (format : Format) :
    (∀ cut lost, capture.serialize format = cut ++ lost → lost ≠ "" →
      ∃ fault, deserialize cut = .error fault) ∧
    ∀ more,
      ((∃ other, deserialize (capture.serialize format ++ more) = .ok other) ↔
        ∀ c ∈ more.toList, c ∈ [' ', '\t', '\n', '\r']) ∧
      ∀ other, deserialize (capture.serialize format ++ more) = .ok other → other = capture := by
  constructor
  · intro cut lost whole proper
    exact deserialize_cut whole proper
  · intro more
    simp only [deserialize_followed]
    constructor
    · constructor
      · rintro ⟨other, blanks, -⟩
        exact blanks
      · intro blanks
        exact ⟨capture, blanks, rfl⟩
    · rintro other ⟨-, same⟩
      exact same

/-- A cut right behind a bracket that belongs to a text. -/
theorem damaged_refused_bracket :
    ∃ fault, deserialize "[\x7b\"content\":\"]" = .error fault :=
  (damaged_refused [⟨"]", "s", Dict.empty⟩] .compact).1 _
    "\",\"scope\":\"s\",\"themeColors\":\x7b\x7d\x7d]" (by decide +kernel) (by decide)

end Colorization.Capture
