import Colorization.Proofs.Path.Directory
import Mathlib.Data.List.Basic

/-! Segments behind a path that are no components: slashes, and dots between them. -/
namespace Colorization.Path

/-- The path is the other one with segments behind it that are no components. -/
structure SilentAfter (path short : Path) : Prop where
  text : short.text.toList <+: path.text.toList
  segments : ∃ before segment behind, Path.segments path.text.toList = before ++ segment :: behind ∧
    Path.segments short.text.toList = before ++ [segment] ∧ component? segment ≠ none ∧ Silent behind

variable {path short : Path}

theorem ne_nil_of_segments {cs segment : List Char} {before : List (List Char)}
    (parts : segments cs = before ++ [segment]) (isComponent : component? segment ≠ none) : cs ≠ [] := by
  rintro rfl
  cases before with
  | nil =>
    cases parts
    exact isComponent rfl
  | cons => simp [segments] at parts

theorem firstSpan?_of_component? {first : List Char} (isFirst : component? first = some last)
    (rest : List (List Char)) : firstSpan? first rest = some (last, first.length) := by
  have notEmpty : first ≠ [] := by
    rintro rfl
    cases isFirst
  have notHere : first ≠ ['.'] := by
    rintro rfl
    cases isFirst
  have long : max 1 first.length = first.length := Nat.max_eq_right (List.length_pos_iff.mpr notEmpty)
  simp [firstSpan?, firstComponent?, notEmpty, notHere, isFirst, long]

/-- The last component of a path, and where it ends. -/
theorem exists_last_span (some : path.route ≠ []) : ∃ before segment behind last,
    segments path.text.toList = before ++ segment :: behind ∧ component? segment = .some last ∧
      Silent behind ∧ path.spans.getLast? = .some (last, width before + segment.length) := by
  rcases segments_cases path with ⟨first, rest, text, silent⟩ |
    ⟨first, before, segment, behind, last, text, isLast, silent⟩
  · cases isFirst : component? first with
    | none => exact absurd (by rw [route, text, List.filterMap_cons_none isFirst, silent]) some
    | some last =>
      refine ⟨[], first, rest, last, text, isFirst, silent, ?_⟩
      rw [spans_eq text, firstSpan?_of_component? isFirst, laterSpans_eq_nil silent]
      simp [width]
  · refine ⟨first :: before, segment, behind, last, text, isLast, silent, ?_⟩
    rw [spans_eq text, laterSpans_concat isLast silent, ← List.append_assoc, List.getLast?_concat]
    simp [width]

/-- The directory of what is put behind a path is that path without what is silent at its end. -/
theorem silentAfter_directory_join {name : List Char} (plain : Plain name) (some : path.route ≠ []) :
    path.SilentAfter (path.join ⟨String.ofList name⟩).directory := by
  obtain ⟨before, segment, behind, last, text, isLast, silent, ends⟩ := exists_last_span some
  have notEmpty := ne_nil_of_segments (segments_take text) (by simp [isLast])
  rw [directory_join_eq plain, ends]
  simp only [if_neg notEmpty]
  refine ⟨?_, before, segment, behind, text, ?_, by simp [isLast], silent⟩
  · rw [String.toList_ofList]
    exact List.take_prefix _ _
  · rw [String.toList_ofList]
    exact segments_take text

namespace SilentAfter

variable (after : SilentAfter path short)

include after

theorem text_ne : short.text ≠ "" := by
  obtain ⟨-, before, segment, behind, -, parts, isComponent, -⟩ := after
  exact fun empty => ne_nil_of_segments parts isComponent (by simp [empty])

theorem isAbsolute : path.isAbsolute = short.isAbsolute := by
  obtain ⟨rest, text⟩ := after.text
  have some : short.text.toList ≠ [] := by simpa using after.text_ne
  rw [Path.isAbsolute, Path.isAbsolute, ← text, List.head?_append_of_ne_nil _ some]

theorem route : path.route = short.route := by
  obtain ⟨-, before, segment, behind, text, parts, -, silent⟩ := after
  rw [Path.route, Path.route, text, parts, List.append_cons, List.filterMap_append, silent,
    List.append_nil]

theorem spans : path.spans = short.spans := by
  obtain ⟨-, before, segment, behind, text, parts, isComponent, silent⟩ := after
  cases before with
  | nil =>
    have one : firstSpan? segment behind = firstSpan? segment [] :=
      firstSpan?_congr fun blank => absurd (by rw [blank]; rfl) isComponent
    rw [spans_eq text, spans_eq parts, one, laterSpans_eq_nil silent]
    rfl
  | cons first before =>
    rw [List.cons_append] at text parts
    have one : firstSpan? first (before ++ segment :: behind) = firstSpan? first (before ++ [segment]) :=
      firstSpan?_congr fun _ => by simp
    rw [spans_eq text, spans_eq parts, one, List.append_cons before segment behind,
      laterSpans_append _ _ behind, laterSpans_eq_nil silent, List.append_nil]

theorem components : path.components = short.components := by
  rw [Path.components, after.spans, Path.components]

theorem parent? : path.parent? = short.parent? := by
  have inside : ∀ component stop, (component, stop) ∈ short.spans →
      path.text.toList.take stop = short.text.toList.take stop := by
    intro component stop member
    obtain ⟨rest, text⟩ := after.text
    rw [← text, List.take_append_of_le_length (stop_le_of_mem_spans member)]
  unfold Path.parent?
  rw [after.spans]
  split
  · rfl
  · rfl
  · rfl
  next isLast =>
    have member := List.mem_reverse.mp (isLast ▸ List.mem_cons_of_mem _ List.mem_cons_self)
    rw [inside _ _ member]

end SilentAfter

end Colorization.Path
