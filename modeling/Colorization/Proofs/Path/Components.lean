import Colorization.Naming
import Colorization.Proofs.Path

/-! The components of a path from its segments. A name that is put behind a path is its last
component, and the other components are those of the path. -/
namespace Colorization.Path

theorem slash_not_mem_segments {cs : List Char} {segment : List Char} (member : segment ∈ segments cs) :
    '/' ∉ segment := by
  induction cs generalizing segment with
  | nil =>
    rw [segments, List.mem_singleton] at member
    simp [member]
  | cons c rest ih =>
    rw [segments] at member
    split at member
    · rcases List.mem_cons.mp member with rfl | later
      · simp
      · exact ih later
    next plain =>
      cases parts : segments rest with
      | nil => exact absurd parts (segments_ne_nil rest)
      | cons first others =>
        simp only [parts] at member ih
        rcases List.mem_cons.mp member with rfl | later
        · rw [List.mem_cons, not_or]
          exact ⟨Ne.symm plain, ih List.mem_cons_self⟩
        · exact ih (List.mem_cons_of_mem _ later)

/-- Only the empty text is one empty segment. -/
theorem segments_eq_blank_iff {cs : List Char} : segments cs = [[]] ↔ cs = [] := by
  constructor
  · intro blank
    cases cs with
    | nil => rfl
    | cons c rest =>
      rw [segments] at blank
      split at blank
      · exact absurd (List.cons.inj blank).2 (segments_ne_nil rest)
      · split at blank <;> simp at blank
  · rintro rfl
    rfl

/-- A segment that is a name. -/
structure Plain (segment : List Char) : Prop where
  notEmpty : segment ≠ []
  notHere : segment ≠ ['.']
  notUp : segment ≠ ['.', '.']
  noSlash : '/' ∉ segment

instance (segment : List Char) : Decidable (Plain segment) :=
  decidable_of_iff (segment ≠ [] ∧ segment ≠ ['.'] ∧ segment ≠ ['.', '.'] ∧ '/' ∉ segment)
    ⟨fun ⟨notEmpty, notHere, notUp, noSlash⟩ => ⟨notEmpty, notHere, notUp, noSlash⟩,
      fun ⟨notEmpty, notHere, notUp, noSlash⟩ => ⟨notEmpty, notHere, notUp, noSlash⟩⟩

/-- What a segment that does not begin a path is as a component. -/
def component? (segment : List Char) : Option Component :=
  if segment = [] ∨ segment = ['.'] then none
  else if segment = ['.', '.'] then some .parent
  else some (.name (String.ofList segment))

theorem Plain.component? {segment : List Char} (plain : Plain segment) :
    Path.component? segment = some (.name (String.ofList segment)) := by
  simp [Path.component?, plain.notEmpty, plain.notHere, plain.notUp]

theorem component?_eq_name_iff {segment : List Char} {text : String} :
    component? segment = some (.name text) ↔
      segment ≠ [] ∧ segment ≠ ['.'] ∧ segment ≠ ['.', '.'] ∧ text = String.ofList segment := by
  unfold component?
  split
  next blank => rcases blank with rfl | rfl <;> simp
  next notBlank =>
    rw [not_or] at notBlank
    split
    next up => simp [up]
    next notUp => simp [notBlank, notUp, eq_comm]

theorem map_fst_laterSpans (offset : Nat) (parts : List (List Char)) :
    (laterSpans offset parts).map (·.1) = parts.filterMap component? := by
  induction parts generalizing offset with
  | nil => rfl
  | cons segment rest ih =>
    simp only [laterSpans, List.filterMap_cons, component?]
    split
    · exact ih _
    split <;> simp [ih]

/-- The component that the first segment gives; an empty one is the root, unless the path is
empty. -/
def firstComponent? (first : List Char) (rest : List (List Char)) : Option Component :=
  if first = [] then if rest = [] then none else some .root
  else if first = ['.'] then some .here
  else component? first

theorem components_eq {path : Path} (text : segments path.text.toList = first :: rest) :
    path.components = (firstComponent? first rest).toList ++ rest.filterMap component? := by
  simp only [components, spans, text]
  split
  next none => cases none
  next none => cases none; rfl
  next others notEmpty slash =>
    cases slash
    have isMore : rest ≠ [] := by
      rintro rfl
      exact notEmpty rfl
    simp [map_fst_laterSpans, firstComponent?, isMore]
  next dot =>
    cases dot
    simp [map_fst_laterSpans, firstComponent?]
  next notEmpty notSlash notDot =>
    have someFirst : first ≠ [] := by
      rintro rfl
      cases rest with
      | nil => exact notEmpty rfl
      | cons => exact notSlash _ rfl
    have noDot : first ≠ ['.'] := by
      rintro rfl
      exact notDot _ rfl
    simp only [map_fst_laterSpans, firstComponent?, if_neg someFirst, if_neg noDot,
      List.filterMap_cons]
    cases component? first <;> rfl

theorem components_join {left : Path} {name : List Char} (plain : Plain name) :
    (left.join ⟨String.ofList name⟩).components =
      left.components ++ [.name (String.ofList name)] := by
  have last : [name].filterMap component? = [.name (String.ofList name)] := by
    rw [List.filterMap_cons_some plain.component?, List.filterMap_nil]
  by_cases empty : left.text = ""
  · have alone : left.join ⟨String.ofList name⟩ = ⟨String.ofList name⟩ := by
      simp [join, isAbsolute_of_not_mem plain.noSlash, empty]
    have text : segments (⟨String.ofList name⟩ : Path).text.toList = [name] := by
      simp [segments_of_not_mem plain.noSlash]
    have nothing : segments left.text.toList = [[]] := by simp [empty, segments]
    rw [alone, components_eq text, components_eq nothing]
    simp [firstComponent?, plain.notEmpty, plain.notHere, plain.component?]
  · obtain ⟨first, rest, parts⟩ := List.exists_cons_of_ne_nil (segments_ne_nil left.text.toList)
    rcases segments_join plain.noSlash empty with ⟨before, slash, text⟩ | text
    · cases before with
      | nil =>
        exact absurd (by simpa using segments_eq_blank_iff.mp slash) empty
      | cons head before =>
        rw [components_eq slash, components_eq text]
        simp [firstComponent?, last, component?]
    · rw [parts] at text
      have more : rest = [] → first ≠ [] := by
        rintro rfl rfl
        exact empty (by simpa using segments_eq_blank_iff.mp parts)
      rw [components_eq parts, components_eq text]
      by_cases blank : first = []
      · have isMore : rest ≠ [] := fun none => more none blank
        simp [firstComponent?, blank, isMore, last]
      · simp [firstComponent?, blank, last]

theorem fileName?_join (left : Path) {name : List Char} (plain : Plain name) :
    (left.join ⟨String.ofList name⟩).fileName? = some (String.ofList name) := by
  simp [fileName?, components_join plain]

/-- The components without those that only tell where the path begins. -/
def route (path : Path) : List Component :=
  (segments path.text.toList).filterMap component?

theorem route_join (left : Path) {name : List Char} (plain : Plain name) :
    (left.join ⟨String.ofList name⟩).route = left.route ++ [.name (String.ofList name)] := by
  have last : [name].filterMap component? = [.name (String.ofList name)] := by
    rw [List.filterMap_cons_some plain.component?, List.filterMap_nil]
  by_cases empty : left.text = ""
  · have text : (left.join ⟨String.ofList name⟩).text.toList = name := by
      simp [join, isAbsolute_of_not_mem plain.noSlash, empty]
    have none : left.route = [] := by
      rw [route, empty]
      rfl
    rw [none, route, text, segments_of_not_mem plain.noSlash, last, List.nil_append]
  · rcases segments_join plain.noSlash empty with ⟨before, text, text'⟩ | text
    · rw [route, route, text, text', List.filterMap_append, List.filterMap_append, last]
      simp [component?]
    · rw [route, route, text, List.filterMap_append, last]

/-- Segments that are no components of their own. -/
def Silent (parts : List (List Char)) : Prop := parts.filterMap component? = []

/-- The last component of some segments, and the silent ones behind it. -/
theorem filterMap_component?_eq_concat {parts : List (List Char)} {last : Component}
    (ends : parts.filterMap component? = before ++ [last]) :
    ∃ a segment b, parts = a ++ segment :: b ∧ a.filterMap component? = before ∧
      component? segment = some last ∧ Silent b := by
  obtain ⟨a, rest, rfl, found, tail⟩ := List.filterMap_eq_append_iff.mp ends
  obtain ⟨c, segment, b, rfl, none, isLast, silent⟩ := List.filterMap_eq_cons_iff.mp tail
  refine ⟨a ++ c, segment, b, by simp, ?_, isLast, silent⟩
  rw [List.filterMap_append, found, List.filterMap_eq_nil_iff.mpr none, List.append_nil]

theorem plain_of_fileName? {path : Path} {text : String} (named : path.fileName? = some text) :
    Plain text.toList := by
  obtain ⟨first, rest, parts⟩ := List.exists_cons_of_ne_nil (segments_ne_nil path.text.toList)
  have member : ∃ segment ∈ first :: rest, component? segment = some (.name text) := by
    unfold fileName? at named
    split at named
    next other last =>
      cases named
      rw [components_eq parts] at last
      have inside := List.mem_of_getLast? last
      rcases List.mem_append.mp inside with atFirst | later
      · refine ⟨first, List.mem_cons_self, ?_⟩
        unfold firstComponent? at atFirst
        split at atFirst
        · split at atFirst <;> simp at atFirst
        split at atFirst
        · simp at atFirst
        · simpa using atFirst
      · obtain ⟨segment, inRest, isName⟩ := List.mem_filterMap.mp later
        exact ⟨segment, List.mem_cons_of_mem _ inRest, isName⟩
    next => cases named
  obtain ⟨segment, inside, isName⟩ := member
  obtain ⟨notEmpty, notHere, notUp, rfl⟩ := component?_eq_name_iff.mp isName
  rw [← parts] at inside
  rw [String.toList_ofList]
  exact ⟨notEmpty, notHere, notUp, slash_not_mem_segments inside⟩

end Colorization.Path
