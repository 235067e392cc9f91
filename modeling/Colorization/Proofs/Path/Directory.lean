import Colorization.FileSystem.Setting
import Colorization.Proofs.Path.Components
import Mathlib.Algebra.GroupWithZero.Nat

/-! The directory of a path that ends with a name: it has the components before the name. -/
namespace Colorization.Path

/-- A text is its first segment, or goes on with a slash behind it. -/
theorem eq_or_slash_of_segments {cs first : List Char} {rest : List (List Char)}
    (parts : segments cs = first :: rest) :
    (rest = [] ∧ cs = first) ∨ ∃ later, cs = first ++ '/' :: later ∧ segments later = rest := by
  induction cs generalizing first with
  | nil =>
    cases parts
    exact .inl ⟨rfl, rfl⟩
  | cons c cs ih =>
    rw [segments] at parts
    split at parts
    next slash =>
      cases parts
      exact .inr ⟨cs, by rw [slash, List.nil_append], rfl⟩
    next =>
      cases tail : segments cs with
      | nil => exact absurd tail (segments_ne_nil cs)
      | cons head others =>
        rw [tail] at parts
        cases parts
        rcases ih tail with ⟨rfl, rfl⟩ | ⟨later, rfl, same⟩
        · exact .inl ⟨rfl, rfl⟩
        · exact .inr ⟨later, rfl, same⟩

/-- The number of characters that segments take up, each with a slash behind it. -/
def width (parts : List (List Char)) : Nat := (parts.map fun part => part.length + 1).sum

/-- The text up to the end of one of its segments. -/
theorem segments_take {cs segment : List Char} {before behind : List (List Char)}
    (parts : segments cs = before ++ segment :: behind) :
    segments (cs.take (width before + segment.length)) = before ++ [segment] := by
  induction before generalizing cs with
  | nil =>
    have plain : '/' ∉ segment := slash_not_mem_segments (by rw [parts]; exact List.mem_cons_self)
    have taken : cs.take (width [] + segment.length) = segment := by
      rcases eq_or_slash_of_segments parts with ⟨-, rfl⟩ | ⟨later, rfl, -⟩ <;> simp [width]
    rw [taken, segments_of_not_mem plain, List.nil_append]
  | cons head before ih =>
    have plain : '/' ∉ head := slash_not_mem_segments (by rw [parts]; exact List.mem_cons_self)
    rcases eq_or_slash_of_segments parts with ⟨none, -⟩ | ⟨later, rfl, tail⟩
    · simp at none
    · have count : width (head :: before) + segment.length =
          head.length + (width before + segment.length + 1) := by
        simp only [width, List.map_cons, List.sum_cons]
        omega
      rw [count, List.take_length_add_append, List.take_succ_cons, segments_append_slash, ih tail,
        segments_of_not_mem plain]
      rfl

theorem laterSpans_append (offset : Nat) (first second : List (List Char)) :
    laterSpans offset (first ++ second) =
      laterSpans offset first ++ laterSpans (offset + width first) second := by
  induction first generalizing offset with
  | nil => rfl
  | cons segment rest ih =>
    have count : offset + segment.length + 1 + width rest = offset + width (segment :: rest) := by
      simp only [width, List.map_cons, List.sum_cons]
      omega
    simp only [List.cons_append, laterSpans, ih, count]
    split
    · rfl
    split <;> rfl

theorem laterSpans_eq_nil {offset : Nat} {parts : List (List Char)} (silent : Silent parts) :
    laterSpans offset parts = [] := by
  have none := map_fst_laterSpans offset parts
  rw [silent] at none
  exact List.map_eq_nil_iff.mp none

theorem laterSpans_concat {offset : Nat} {before behind : List (List Char)} {segment : List Char}
    {last : Component} (isLast : component? segment = some last) (silent : Silent behind) :
    laterSpans offset (before ++ segment :: behind) =
      laterSpans offset before ++ [(last, offset + width before + segment.length)] := by
  rw [laterSpans_append, laterSpans, laterSpans_eq_nil silent]
  unfold component? at isLast
  split at isLast
  · cases isLast
  next notBlank =>
    rw [if_neg notBlank]
    split at isLast
    next up => cases isLast; rw [if_pos up]
    next notUp => cases isLast; rw [if_neg notUp]

/-- The component of the first segment with the number of characters up to its end. -/
def firstSpan? (first : List Char) (rest : List (List Char)) : Option (Component × Nat) :=
  (firstComponent? first rest).map fun component => (component, max 1 first.length)

theorem spans_eq {path : Path} (text : segments path.text.toList = first :: rest) :
    path.spans = (firstSpan? first rest).toList ++ laterSpans (first.length + 1) rest := by
  simp only [spans, text]
  split
  next none => cases none
  next none => cases none; rfl
  next others notEmpty slash =>
    cases slash
    have isMore : rest ≠ [] := by
      rintro rfl
      exact notEmpty rfl
    simp [firstSpan?, firstComponent?, isMore]
  next dot =>
    cases dot
    simp [firstSpan?, firstComponent?]
  next notEmpty notSlash notDot =>
    have someFirst : first ≠ [] := by
      rintro rfl
      cases rest with
      | nil => exact notEmpty rfl
      | cons => exact notSlash _ rfl
    have noDot : first ≠ ['.'] := by
      rintro rfl
      exact notDot _ rfl
    have long : max 1 first.length = first.length :=
      Nat.max_eq_right (List.length_pos_iff.mpr someFirst)
    simp only [firstSpan?, firstComponent?, component?, laterSpans, Nat.zero_add, long,
      someFirst, noDot, or_self, if_false]
    split <;> rfl

theorem component?_ne_root {segment : List Char} : component? segment ≠ some .root := by
  unfold component?
  split
  · simp
  · split <;> simp

/-- The parent begins where the path does. -/
theorem parent?_of_spans {path : Path} {stop : Nat} (before : List (Component × Nat))
    (notEmpty : path.text ≠ "") (positive : 0 < stop)
    (spans : path.spans = before ++ [(component, stop), (last, stop')]) (notRoot : last ≠ .root) :
    ∃ parent, path.parent? = some parent ∧ parent.text.toList = path.text.toList.take stop ∧
      parent.text ≠ "" ∧ parent.isAbsolute = path.isAbsolute := by
  have someText : path.text.toList ≠ [] := by simpa using notEmpty
  refine ⟨⟨String.ofList (path.text.toList.take stop)⟩, by simp [parent?, spans, notRoot],
    String.toList_ofList, ?_, ?_⟩
  · simp only [ne_eq, String.ofList_eq_empty_iff, List.take_eq_nil_iff, not_or]
    exact ⟨Nat.ne_of_gt positive, someText⟩
  · simp [isAbsolute, List.head?_take, Nat.ne_of_gt positive]

theorem exists_firstSpan? (first : List Char) {rest : List (List Char)} (more : rest ≠ []) :
    ∃ component, firstSpan? first rest = some (component, max 1 first.length) := by
  unfold firstSpan? firstComponent?
  split
  · simp
  split
  · simp
  next notEmpty notHere =>
    cases isSome : component? first with
    | none => simp [component?, notEmpty, notHere] at isSome; split at isSome <;> simp at isSome
    | some component => simp

/-- The text up to the end of the first segment, or the slash that the path begins with. -/
theorem filterMap_take_first {cs first : List Char} {rest : List (List Char)}
    (text : segments cs = first :: rest) (more : rest ≠ []) :
    (segments (cs.take (max 1 first.length))).filterMap component? = [first].filterMap component? := by
  have plain : '/' ∉ first := slash_not_mem_segments (by rw [text]; exact List.mem_cons_self)
  rcases eq_or_slash_of_segments text with ⟨none, -⟩ | ⟨later, rfl, -⟩
  · exact absurd none more
  cases first with
  | nil => simp [segments, component?]
  | cons c first =>
    have long : max 1 (c :: first).length = (c :: first).length := Nat.max_eq_right (by simp)
    rw [long, List.take_left, segments_of_not_mem plain]

/-- Behind the first segment every component has a parent that is not empty: the text up to the
end of the component before it. -/
theorem parent?_of_segments {path : Path} {last : Component} {segment : List Char}
    (text : segments path.text.toList = first :: (before ++ segment :: behind))
    (isLast : component? segment = some last) (silent : Silent behind) :
    ∃ parent, path.parent? = some parent ∧ parent.text ≠ "" ∧
      parent.route = (first :: before).filterMap component? ∧
      parent.isAbsolute = path.isAbsolute := by
  have notRoot : last ≠ .root := by
    rintro rfl
    exact component?_ne_root isLast
  have more : before ++ segment :: behind ≠ [] := by simp
  have notEmpty : path.text ≠ "" := by
    intro empty
    simp [empty, segments] at text
  obtain ⟨component, one⟩ := exists_firstSpan? first more
  have spans := spans_eq text
  rw [laterSpans_concat isLast silent, one] at spans
  rcases List.eq_nil_or_concat (before.filterMap component?) with none | ⟨init, middle, some⟩
  · rw [laterSpans_eq_nil none] at spans
    obtain ⟨parent, isParent, taken, filled, absolute⟩ :=
      parent?_of_spans [] notEmpty (by omega) spans notRoot
    refine ⟨parent, isParent, filled, ?_, absolute⟩
    have whole : first :: before = [first] ++ before := rfl
    rw [Path.route, taken, filterMap_take_first text more, whole, List.filterMap_append, none,
      List.append_nil]
  · rw [List.concat_eq_append] at some
    obtain ⟨a, inner, b, rfl, -, isMiddle, between⟩ := filterMap_component?_eq_concat some
    rw [laterSpans_concat isMiddle between, List.append_assoc, ← List.append_assoc] at spans
    obtain ⟨parent, isParent, taken, filled, absolute⟩ :=
      parent?_of_spans _ notEmpty (by omega) spans notRoot
    have count : first.length + 1 + width a + inner.length = width (first :: a) + inner.length := by
      simp only [width, List.map_cons, List.sum_cons]
    have split : segments path.text.toList = (first :: a) ++ inner :: (b ++ segment :: behind) := by
      simp [text]
    refine ⟨parent, isParent, filled, ?_, absolute⟩
    rw [Path.route, taken, count, segments_take split, ← List.cons_append, List.filterMap_append,
      List.filterMap_append, List.filterMap_cons_some isMiddle, List.filterMap_cons_some isMiddle,
      between, List.filterMap_nil]

/-- A path has one segment and silent ones behind it, or a last component behind the first. -/
theorem segments_cases (path : Path) :
    (∃ first rest, segments path.text.toList = first :: rest ∧ Silent rest) ∨
    ∃ first before segment behind last,
      segments path.text.toList = first :: (before ++ segment :: behind) ∧
      component? segment = some last ∧ Silent behind := by
  obtain ⟨first, rest, text⟩ := List.exists_cons_of_ne_nil (segments_ne_nil path.text.toList)
  rcases List.eq_nil_or_concat (rest.filterMap component?) with none | ⟨init, last, some⟩
  · exact .inl ⟨first, rest, text, none⟩
  · rw [List.concat_eq_append] at some
    obtain ⟨before, segment, behind, rfl, -, isLast, silent⟩ := filterMap_component?_eq_concat some
    exact .inr ⟨first, before, segment, behind, last, text, isLast, silent⟩

theorem route_of_segments {path : Path} {last : Component} {segment : List Char}
    (text : segments path.text.toList = first :: (before ++ segment :: behind))
    (isLast : component? segment = some last) (silent : Silent behind) :
    path.route = (first :: before).filterMap component? ++ [last] := by
  rw [route, text, ← List.cons_append, List.filterMap_append, List.filterMap_cons_some isLast, silent]

/-- A parent that is not empty has all components but the last. -/
theorem route_of_parent? {path parent : Path} (isParent : path.parent? = some parent)
    (notEmpty : parent.text ≠ "") :
    parent.isAbsolute = path.isAbsolute ∧ ∃ last, path.route = parent.route ++ [last] := by
  rcases segments_cases path with ⟨first, rest, text, silent⟩ | ⟨first, before, segment, behind, last,
    text, isLast, silent⟩
  · have spans := spans_eq text
    rw [laterSpans_eq_nil silent, List.append_nil] at spans
    unfold parent? at isParent
    rw [spans] at isParent
    cases one : firstSpan? first rest with
    | none => simp [one] at isParent
    | some span =>
      obtain ⟨component, stop⟩ := span
      cases component <;> simp [one] at isParent <;> simp [← isParent] at notEmpty
  · obtain ⟨parent', isParent', -, route, absolute⟩ := parent?_of_segments text isLast silent
    cases isParent.symm.trans isParent'
    exact ⟨absolute, last, by rw [route, route_of_segments text isLast silent]⟩

theorem fileName?_eq_some_iff {path : Path} :
    path.fileName? = some name ↔ path.components.getLast? = some (.name name) := by
  unfold fileName?
  split
  next other last => simp [last]
  next noName =>
    constructor
    · nofun
    · exact fun last => absurd last (noName name)

theorem isAbsolute_of_segments {path : Path} (text : segments path.text.toList = first :: rest)
    (notEmpty : first ≠ []) : path.isAbsolute = false := by
  obtain ⟨c, first, rfl⟩ := List.exists_cons_of_ne_nil notEmpty
  have plain : '/' ∉ c :: first := slash_not_mem_segments (by rw [text]; exact List.mem_cons_self)
  have differs : c ≠ '/' := by
    rintro rfl
    exact plain List.mem_cons_self
  rcases eq_or_slash_of_segments text with ⟨-, whole⟩ | ⟨later, whole, -⟩ <;>
    simp [isAbsolute, whole, differs]

/-- A path of one component is in the directory where it begins. -/
theorem directory_of_silent {path : Path} (text : segments path.text.toList = first :: rest)
    (silent : Silent rest) : path.directory = ⟨"."⟩ := by
  have spans := spans_eq text
  rw [laterSpans_eq_nil silent, List.append_nil] at spans
  cases one : firstSpan? first rest with
  | none => simp [directory, parent?, spans, one]
  | some span =>
    obtain ⟨component, stop⟩ := span
    cases component <;> simp [directory, parent?, spans, one]

/-- The directory of a path that ends with a name has the components before the name. -/
theorem route_directory {path : Path} (named : path.fileName? = some name) :
    path.directory.isAbsolute = path.isAbsolute ∧
      path.route = path.directory.route ++ [.name name] := by
  have ends := fileName?_eq_some_iff.mp named
  rcases segments_cases path with ⟨first, rest, text, silent⟩ | ⟨first, before, segment, behind, last,
    text, isLast, silent⟩
  · rw [components_eq text, silent, List.append_nil] at ends
    have single : firstComponent? first rest = some (.name name) := by
      cases one : firstComponent? first rest with
      | none => simp [one] at ends
      | some component => simpa [one] using ends
    have notEmpty : first ≠ [] := by
      rintro rfl
      rw [firstComponent?, if_pos rfl] at single
      split at single <;> simp at single
    have notHere : first ≠ ['.'] := by
      rintro rfl
      simp [firstComponent?] at single
    have isName : component? first = some (.name name) := by
      simpa [firstComponent?, notEmpty, notHere] using single
    rw [directory_of_silent text silent, isAbsolute_of_segments text notEmpty, route, text, List.filterMap_cons_some isName, silent]
    exact ⟨by decide, rfl⟩
  · obtain ⟨parent, isParent, notEmpty, route, absolute⟩ := parent?_of_segments text isLast silent
    have whole := route_of_segments text isLast silent
    have same : path.directory = parent := by
      simp [directory, isParent, notEmpty]
    have isName : last = .name name := by
      rw [components_eq text, List.filterMap_append, List.filterMap_cons_some isLast, silent,
        ← List.append_assoc, List.getLast?_concat] at ends
      exact Option.some.inj ends
    rw [same]
    exact ⟨absolute, by rw [route, whole, isName]⟩

theorem component?_cases {segment : List Char} (isLast : component? segment = some last) :
    last = .parent ∨ ∃ name, last = .name name := by
  unfold component? at isLast
  split at isLast
  · cases isLast
  split at isLast
  · exact .inl (Option.some.inj isLast).symm
  · exact .inr ⟨_, (Option.some.inj isLast).symm⟩

/-- A path without a name and without `..` is in the directory where it begins. -/
theorem directory_of_nameless {path : Path} (nameless : path.fileName? = none)
    (level : .parent ∉ path.components) : path.directory = ⟨"."⟩ := by
  rcases segments_cases path with ⟨first, rest, text, silent⟩ | ⟨first, before, segment, behind, last,
    text, isLast, silent⟩
  · exact directory_of_silent text silent
  · have ends : path.components.getLast? = some last := by
      rw [components_eq text, List.filterMap_append, List.filterMap_cons_some isLast, silent,
        ← List.append_assoc, List.getLast?_concat]
    rcases component?_cases isLast with rfl | ⟨name, rfl⟩
    · exact absurd (List.mem_of_getLast? ends) level
    · rw [fileName?_eq_some_iff.mpr ends] at nameless
      cases nameless

theorem directory_text_ne (path : Path) : path.directory.text ≠ "" := by
  unfold directory
  split
  · split
    · decide
    next notEmpty => simpa using notEmpty
  · decide

theorem mem_route {path : Path} (member : component ∈ path.route) : component ∈ path.components := by
  obtain ⟨first, rest, text⟩ := List.exists_cons_of_ne_nil (segments_ne_nil path.text.toList)
  rw [components_eq text, List.mem_append]
  rw [route, text] at member
  obtain ⟨segment, inside, isComponent⟩ := List.mem_filterMap.mp member
  rcases List.mem_cons.mp inside with rfl | later
  · left
    have notEmpty : segment ≠ [] := by
      rintro rfl
      cases isComponent
    have notHere : segment ≠ ['.'] := by
      rintro rfl
      cases isComponent
    simp [firstComponent?, notEmpty, notHere, isComponent]
  · exact .inr (List.mem_filterMap.mpr ⟨segment, later, isComponent⟩)

section Join

/-- A path that ends with a name on its route has a file name. -/
theorem fileName?_of_route {path : Path} (last : path.route.getLast? = some (.name name)) :
    path.fileName? = some name := by
  obtain ⟨first, rest, text⟩ := List.exists_cons_of_ne_nil (segments_ne_nil path.text.toList)
  rw [fileName?_eq_some_iff, components_eq text]
  rw [route, text, ← List.singleton_append, List.filterMap_append] at last
  cases later : rest.filterMap component? with
  | cons component others =>
    rw [later, List.getLast?_append, List.getLast?_cons] at last
    rw [List.getLast?_append, List.getLast?_cons]
    exact last
  | nil =>
    rw [later, List.append_nil] at last
    rw [List.append_nil]
    cases only : component? first with
    | none =>
      rw [List.filterMap_cons_none only] at last
      cases last
    | some component =>
      rw [List.filterMap_cons_some only] at last
      cases last
      obtain ⟨notEmpty, notHere, -, -⟩ := component?_eq_name_iff.mp only
      simp [firstComponent?, notEmpty, notHere, only]

theorem width_segments (cs : List Char) : width (segments cs) = cs.length + 1 := by
  induction cs with
  | nil => rfl
  | cons c rest ih =>
    rw [segments]
    split
    · simp only [width, List.map_cons, List.sum_cons, List.length_nil, List.length_cons] at ih ⊢
      omega
    · cases tail : segments rest with
      | nil => exact absurd tail (segments_ne_nil rest)
      | cons head others =>
        simp only [tail, width, List.map_cons, List.sum_cons, List.length_cons] at ih ⊢
        omega

theorem stop_lt_of_mem_laterSpans {offset : Nat} {parts : List (List Char)}
    (member : (component, stop) ∈ laterSpans offset parts) : stop < offset + width parts := by
  induction parts generalizing offset with
  | nil => cases member
  | cons segment rest ih =>
    have count : offset + segment.length + 1 + width rest = offset + width (segment :: rest) := by
      simp only [width, List.map_cons, List.sum_cons]
      omega
    rw [laterSpans] at member
    split at member
    · exact count ▸ ih member
    split at member <;>
    · rcases List.mem_cons.mp member with same | later
      · cases same
        omega
      · exact count ▸ ih later

/-- Components end in the text. -/
theorem stop_le_of_mem_spans {path : Path} (member : (component, stop) ∈ path.spans) :
    stop ≤ path.text.toList.length := by
  obtain ⟨first, rest, text⟩ := List.exists_cons_of_ne_nil (segments_ne_nil path.text.toList)
  have count := width_segments path.text.toList
  rw [text] at count
  simp only [width, List.map_cons, List.sum_cons] at count
  rw [spans_eq text] at member
  rcases List.mem_append.mp member with atFirst | later
  · obtain ⟨component', isFirst, same⟩ := Option.map_eq_some_iff.mp (Option.mem_toList.mp atFirst)
    cases same
    rcases first with _ | ⟨c, first⟩
    · cases rest with
      | nil => simp [firstComponent?] at isFirst
      | cons second rest =>
        simp only [List.map_cons, List.sum_cons, List.length_nil] at count ⊢
        omega
    · simp only [List.length_cons] at count ⊢
      omega
  · have bound := stop_lt_of_mem_laterSpans later
    simp only [width] at bound
    omega

/-- What the first segment is depends on the others only if it is empty. -/
theorem firstSpan?_congr {first : List Char} {rest rest' : List (List Char)}
    (more : first = [] → rest ≠ [] ∧ rest' ≠ []) : firstSpan? first rest = firstSpan? first rest' := by
  by_cases blank : first = []
  · simp [firstSpan?, firstComponent?, blank, more blank]
  · simp [firstSpan?, firstComponent?, blank]

theorem spans_join (left : Path) {name : List Char} (plain : Plain name) :
    ∃ stop, (left.join ⟨String.ofList name⟩).spans =
      left.spans ++ [(.name (String.ofList name), stop)] := by
  have silent : Silent ([] : List (List Char)) := rfl
  by_cases empty : left.text = ""
  · have alone : left.join ⟨String.ofList name⟩ = ⟨String.ofList name⟩ := by
      simp [join, isAbsolute_of_not_mem plain.noSlash, empty]
    have text : segments (⟨String.ofList name⟩ : Path).text.toList = [name] := by
      simp [segments_of_not_mem plain.noSlash]
    have nothing : left.spans = [] := by simp [spans, empty, segments]
    refine ⟨max 1 name.length, ?_⟩
    simp [alone, spans_eq text, nothing, firstSpan?, firstComponent?, plain.notEmpty, plain.notHere,
      plain.component?, laterSpans]
  · rcases segments_join plain.noSlash empty with ⟨before, slash, text⟩ | text
    · cases before with
      | nil => exact absurd (by simpa using segments_eq_blank_iff.mp slash) empty
      | cons head before =>
        have one : firstSpan? head (before ++ [name]) = firstSpan? head (before ++ [[]]) :=
          firstSpan?_congr (by simp)
        rw [List.cons_append] at slash text
        have blank : Silent [[]] := rfl
        exact ⟨_, by rw [spans_eq slash, spans_eq text, laterSpans_concat plain.component? silent,
          laterSpans_append _ before, laterSpans_eq_nil blank, one, List.append_nil,
          List.append_assoc]⟩
    · obtain ⟨first, rest, parts⟩ := List.exists_cons_of_ne_nil (segments_ne_nil left.text.toList)
      rw [parts, List.cons_append] at text
      have one : firstSpan? first (rest ++ [name]) = firstSpan? first rest := by
        refine firstSpan?_congr fun blank => ⟨by simp, ?_⟩
        rintro rfl
        rw [blank] at parts
        exact empty (by simpa using segments_eq_blank_iff.mp parts)
      exact ⟨_, by rw [spans_eq parts, spans_eq text, laterSpans_concat plain.component? silent, one,
        List.append_assoc]⟩

theorem text_join (left : Path) {name : List Char} (plain : '/' ∉ name) :
    ∃ rest, (left.join ⟨String.ofList name⟩).text.toList = left.text.toList ++ rest := by
  rw [join, if_neg (by simp [isAbsolute_of_not_mem plain])]
  split
  · exact ⟨name, by simp⟩
  · exact ⟨'/' :: name, by simp⟩

/-- The directory of what is put behind a path is the path up to its last component. -/
theorem directory_join_eq {left : Path} {name : List Char} (plain : Plain name) :
    (left.join ⟨String.ofList name⟩).directory =
      match left.spans.getLast? with
      | none => ⟨"."⟩
      | some (_, stop) =>
        if left.text.toList.take stop = [] then ⟨"."⟩
        else ⟨String.ofList (left.text.toList.take stop)⟩ := by
  obtain ⟨stop', spans⟩ := spans_join left plain
  obtain ⟨rest, text⟩ := text_join left plain.noSlash
  rcases List.eq_nil_or_concat left.spans with none | ⟨init, ⟨component, stop⟩, some⟩
  · simp [directory, parent?, spans, none]
  · have last : (component, stop) ∈ left.spans := by simp [some]
    have inside := stop_le_of_mem_spans last
    simp only [directory, parent?, spans, some, text, List.concat_eq_append, List.reverse_append,
      List.reverse_cons, List.reverse_nil, List.nil_append, List.singleton_append,
      List.getLast?_concat, List.take_append_of_le_length inside]
    simp

theorem directory_join {left : Path} {name other : List Char} (plain : Plain name)
    (plain' : Plain other) :
    (left.join ⟨String.ofList name⟩).directory = (left.join ⟨String.ofList other⟩).directory := by
  rw [directory_join_eq plain, directory_join_eq plain']

end Join

end Colorization.Path
