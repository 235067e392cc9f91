import Colorization.Proofs.FileSystem.Again
import Colorization.Proofs.FileSystem.Stuck
import Colorization.Proofs.Path.Trailing
import Mathlib.Data.List.TakeWhile

/-! Slashes and dots behind a path make no difference to the directories that are made for it, if they
can be. With a dot at its end a path is no entry of a directory: it leads to a directory once those above
it are made, or it is refused. -/
namespace Colorization.FileSystem

open Colorization.Path (SilentAfter component?)

variable {files : FileSystem} {path short : Path} {segment : Segment} {before between blanks : List Segment}

/-- What is above a path is not made where its directory is there. -/
theorem makeEach_above (list : upward depth path = path :: above)
    (there : ∀ parent, path.parent? = some parent → parent.text ≠ "" →
      ∃ folder mode, files.find parent = .ok (folder, .directory mode)) :
    files.makeEach above = (.ok (), files) := by
  cases depth with
  | zero =>
    cases list
    rfl
  | succ depth =>
    rw [upward] at list
    split at list
    next => cases list; rfl
    next parent isParent =>
      cases list
      obtain ⟨higher, list⟩ := exists_upward depth parent
      rw [list]
      by_cases empty : parent.text = ""
      · simp [makeEach, empty]
      · obtain ⟨folder, mode, found⟩ := there parent isParent empty
        exact makeEach_of_find found higher

theorem ne_nil_of_component? (isComponent : component? segment ≠ none) : segment ≠ [] :=
  fun empty => isComponent (component?_eq_none_iff.mpr (.inl empty))

/-- Behind the last component there are only slashes, or the path ends with a dot. -/
theorem slashes_or_dot (after : SilentAfter path short) : ∃ before segment,
    component? segment ≠ none ∧ Path.segments short.text.toList = before ++ [segment] ∧
    ((∃ blanks, (∀ blank ∈ blanks, blank = []) ∧
        Path.segments path.text.toList = before ++ segment :: blanks) ∨
      ∃ between blanks, (∀ blank ∈ blanks, blank = []) ∧
        Path.segments path.text.toList = (before ++ segment :: between) ++ ['.'] :: blanks) := by
  obtain ⟨-, before, segment, behind, text, parts, isComponent, silent⟩ := after
  refine ⟨before, segment, isComponent, parts, ?_⟩
  cases ends : behind.reverse.dropWhile (·.isEmpty) with
  | nil =>
    refine .inl ⟨behind, fun blank member => ?_, text⟩
    have all := List.dropWhile_eq_nil_iff.mp ends blank (List.mem_reverse.mpr member)
    simpa using all
  | cons last between =>
    obtain ⟨blanks, rfl, empty, notEmpty⟩ := dropWhile_reverse_eq_cons ends
    have blank := component?_eq_none_iff.mp (List.filterMap_eq_nil_iff.mp silent last (by simp))
    obtain rfl := blank.resolve_left notEmpty
    exact .inr ⟨between.reverse, blanks, empty, by rw [text, List.append_assoc, List.cons_append]⟩

section SilentAfter

variable (after : SilentAfter path short) (checked : check path = .ok ())

include after checked

theorem check_of_silentAfter : check short = .ok () := by
  obtain ⟨noNul, -, bound⟩ := check_eq_ok_iff.mp checked
  obtain ⟨rest, text⟩ := after.text
  have whole : path.text = short.text ++ String.ofList rest := by
    rw [← String.toList_inj, ← text, String.toList_append, String.toList_ofList]
  refine check_eq_ok_iff.mpr ⟨fun nul => noNul ?_, after.text_ne, ?_⟩
  · rw [← text]
    exact List.mem_append_left _ nul
  · rw [whole, String.utf8ByteSize_append] at bound
    omega

omit checked in
theorem start_of_silentAfter (files : FileSystem) : files.start path = files.start short := by
  rw [start, start, after.isAbsolute]

theorem find_of_silentAfter : files.find path = .ok (folder, .directory mode) ↔
    files.find short = .ok (folder, .directory mode) := by
  rw [find_eq_ok_iff, find_eq_ok_iff, start_of_silentAfter after]
  refine and_congr (iff_of_true checked (check_of_silentAfter after checked)) ?_
  refine exists_congr fun used => and_congr_right fun _ => ?_
  exact ⟨fun leads => leads.of_components after.route, fun leads => leads.of_components after.route.symm⟩

end SilentAfter

/-- With slashes at its end the path has the same entry. -/
theorem makeDirectory_of_slashes (after : SilentAfter path short) (checked : check path = .ok ())
    (files : FileSystem) (isComponent : component? segment ≠ none)
    (parts : Path.segments short.text.toList = before ++ [segment])
    (text : Path.segments path.text.toList = before ++ segment :: blanks)
    (empty : ∀ blank ∈ blanks, blank = []) : files.makeDirectory path = files.makeDirectory short := by
  have notEmpty := ne_nil_of_component? isComponent
  have same : (files.entry? path).map (Option.map Entry.location) =
      (files.entry? short).map (Option.map Entry.location) := by
    unfold entry?
    simp only [checked, check_of_silentAfter after checked, text, parts, start_of_silentAfter after,
      dropWhile_reverse_append before notEmpty empty,
      dropWhile_reverse_append before notEmpty (List.forall_mem_nil _), bind, Except.bind]
    split
    · rfl
    · split
      · rfl
      · split
        · rfl
        · split <;> rfl
      · rfl
  unfold makeDirectory
  generalize files.entry? path = onPath, files.entry? short = onShort at same ⊢
  rcases onPath with error | _ | entry <;> rcases onShort with error' | _ | entry' <;>
    simp only [Except.map, Option.map_some, Option.map_none, Except.ok.injEq, Except.error.injEq,
      Option.some.injEq, reduceCtorEq] at same
  · rw [same]
  · rfl
  · simp only [bind, Except.bind, same]

theorem makeEach_of_slashes (after : SilentAfter path short) (checked : check path = .ok ())
    (isComponent : component? segment ≠ none)
    (parts : Path.segments short.text.toList = before ++ [segment])
    (text : Path.segments path.text.toList = before ++ segment :: blanks)
    (empty : ∀ blank ∈ blanks, blank = []) (above : List Path) :
    files.makeEach (path :: above) = files.makeEach (short :: above) := by
  have alike := fun files => makeDirectory_of_slashes after checked files isComponent parts text empty
  have isThere : ∀ files : FileSystem, files.isDirectory path = files.isDirectory short := by
    intro files
    rw [Bool.eq_iff_iff, isDirectory_iff, isDirectory_iff]
    exact exists_congr fun _ => exists_congr fun _ => find_of_silentAfter after checked
  have someText : path.text ≠ "" := (check_eq_ok_iff.mp checked).2.1
  simp [makeEach, requireDirectory, someText, after.text_ne, alike, isThere]

/-- With a dot at its end it has none. -/
theorem makeDirectory_ne_of_dot (text : Path.segments path.text.toList = before ++ ['.'] :: blanks)
    (empty : ∀ blank ∈ blanks, blank = []) : files.makeDirectory path ≠ .ok made := by
  intro isMade
  obtain ⟨location, slash, entered, -, -⟩ := makeDirectory_eq_ok isMade
  obtain ⟨-, folder, name, named, ⟨before', blanks', -, -, text', empty', -⟩, -⟩ := entry?_eq_ok_iff.mp entered
  have names := dropWhile_reverse_append before (List.cons_ne_nil '.' []) empty
  rw [← text, text', dropWhile_reverse_append before' named.notEmpty empty'] at names
  exact named.notHere (List.cons.inj names).1

/-- What is missing to the path with the dot is missing to the path without it, if the directory that
this is in is not there. -/
theorem makeDirectory_of_dot (nested : files.Nested) (after : SilentAfter path short)
    (checked : check path = .ok ()) (isComponent : component? segment ≠ none)
    (parts : Path.segments short.text.toList = before ++ [segment])
    (text : Path.segments path.text.toList = (before ++ segment :: between) ++ ['.'] :: blanks)
    (empty : ∀ blank ∈ blanks, blank = [])
    (refused : files.makeDirectory path = .error .noEntry)
    (away : stuck? (files.walk true maxLinks (files.start short) before) ≠ none) :
    files.makeDirectory short = .error .noEntry := by
  have notEmpty := ne_nil_of_component? isComponent
  have stuck : stuck? (files.walk true maxLinks (files.start short) (before ++ segment :: between)) =
      some .noEntry := by
    rw [← start_of_silentAfter after]
    cases ends : stuck? (files.walk true maxLinks (files.start path) (before ++ segment :: between)) with
    | none =>
      rw [makeDirectory, entry?_of_dot checked text empty ends] at refused
      cases refused
    | some error =>
      rw [makeDirectory, entry?_of_stuck checked text (by simp) empty ends] at refused
      cases refused
      rfl
  obtain ⟨node, there⟩ : ∃ node, files.node? (files.start short) = some node := by
    cases there : files.node? (files.start short) with
    | some node => exact ⟨node, rfl⟩
    | none =>
      obtain ⟨first, rest, whole⟩ := List.exists_cons_of_ne_nil
        (List.append_ne_nil_of_right_ne_nil before (List.cons_ne_nil segment between))
      rw [whole, walk_eq_advance, advance, there] at stuck
      cases stuck
  obtain ⟨error, early⟩ := Option.ne_none_iff_exists'.mp away
  have more : (segment :: between).all (·.isEmpty) = false := by simp [notEmpty]
  rw [walk_append_of_stuck nested there more early] at stuck
  cases stuck
  rw [makeDirectory,
    entry?_of_stuck (check_of_silentAfter after checked) parts notEmpty (List.forall_mem_nil _) early]
  rfl

/-- The directories above the other path are those above the path. -/
theorem upward_of_silentAfter (after : SilentAfter path short) (depth : Nat) :
    ∃ above, upward depth path = path :: above ∧ upward depth short = short :: above := by
  cases depth with
  | zero => exact ⟨[], rfl, rfl⟩
  | succ depth =>
    rw [upward, upward, after.parent?]
    cases short.parent? with
    | none => exact ⟨[], rfl, rfl⟩
    | some parent => exact ⟨_, rfl, rfl⟩

theorem requireDirectory_of_find (found : files.find path = .ok (folder, .directory mode)) :
    files.requireDirectory path = (.ok (), files) := by
  simp [requireDirectory, makeDirectory_of_find found, isDirectory_iff.mpr ⟨folder, mode, found⟩]

/-- A directory that nothing makes is there when those above it are made. -/
theorem makeEach_of_unmade (notEmpty : path.text ≠ "")
    (unmade : ∀ files made : FileSystem, files.makeDirectory path ≠ .ok made)
    (absent : ∀ folder mode, files.find path ≠ .ok (folder, .directory mode))
    (created : (files.makeEach (path :: above)).1 = .ok ()) :
    files.makeDirectory path = .error .noEntry ∧ ∃ ready, files.makeEach above = (.ok (), ready) ∧
      files.makeEach (path :: above) = (.ok (), ready) ∧
      ∃ folder mode, ready.find path = .ok (folder, .directory mode) := by
  have required : ∀ {ready : FileSystem}, (ready.requireDirectory path).1 = .ok () →
      ready.requireDirectory path = (.ok (), ready) ∧
        ∃ folder mode, ready.find path = .ok (folder, .directory mode) := by
    intro ready isThere
    have same := (requireDirectory_cases ready path).resolve_right (unmade _ _)
    obtain ⟨folder, mode, found⟩ := find_of_requireDirectory isThere
    exact ⟨Prod.ext isThere same, folder, mode, same ▸ found⟩
  simp only [makeEach, String.isEmpty_iff, if_neg notEmpty] at created ⊢
  split at created
  next refused =>
    split at created
    next => cases created
    next ready made =>
      obtain ⟨same, found⟩ := required created
      exact ⟨refused, ready, made, same, found⟩
  next =>
    obtain ⟨-, folder, mode, found⟩ := required created
    exact absurd found (absent folder mode)

/-- The directory of the last segment is that of the parent. -/
theorem find_parent_of_walk (checked : check path = .ok ())
    (text : Path.segments path.text.toList = before ++ [segment]) (isComponent : component? segment ≠ none)
    (onward : stuck? (files.walk true maxLinks (files.start path) before) = none)
    (isParent : path.parent? = some parent) (notEmpty : parent.text ≠ "") :
    ∃ folder mode, files.find parent = .ok (folder, .directory mode) := by
  obtain ⟨folder, mode, walked⟩ := stuck?_eq_none_iff.mp onward
  obtain ⟨used, bound, leads⟩ := leads_of_walk walked
  obtain ⟨component, isLast⟩ := Option.ne_none_iff_exists'.mp isComponent
  obtain ⟨-, last, route⟩ := Path.route_of_parent? isParent notEmpty
  rw [Path.route, text, List.filterMap_append, List.filterMap_cons_some isLast] at route
  exact ⟨folder, mode, find_parent checked isParent notEmpty bound (List.append_inj' route rfl).1 leads⟩

/-- The same directories are made. -/
theorem makeDirectories_of_silentAfter (nested : files.Nested) (after : SilentAfter path short)
    (created : (files.makeDirectories path).1 = .ok ()) :
    files.makeDirectories short = files.makeDirectories path := by
  have notEmpty : path.text ≠ "" := fun empty => after.text_ne (by simpa [empty] using after.text)
  obtain ⟨_, _, found⟩ := find_of_makeDirectories notEmpty created
  obtain ⟨checked, -⟩ := find_eq_ok_iff.mp found
  have checked' := check_of_silentAfter after checked
  by_cases already : ∃ folder mode, files.find path = .ok (folder, .directory mode)
  · obtain ⟨folder, mode, found⟩ := already
    rw [makeDirectories_of_find found,
      makeDirectories_of_find ((find_of_silentAfter after checked).mp found)]
  obtain ⟨above, list, list'⟩ := upward_of_silentAfter after path.components.length
  unfold makeDirectories at created ⊢
  rw [← after.components, list']
  rw [list] at created ⊢
  obtain ⟨before, segment, isComponent, parts, ⟨blanks, empty, text⟩ | ⟨between, blanks, empty, text⟩⟩ :=
    slashes_or_dot after
  · exact (makeEach_of_slashes after checked isComponent parts text empty above).symm
  · obtain ⟨refused, ready, made, whole, folder, mode, found⟩ := makeEach_of_unmade notEmpty
      (fun _ _ => makeDirectory_ne_of_dot text empty) (fun folder mode found => already ⟨folder, mode, found⟩)
      created
    have away : stuck? (files.walk true maxLinks (files.start short) before) ≠ none := by
      intro onward
      have same := makeEach_above list' fun parent =>
        find_parent_of_walk checked' parts isComponent onward
      cases made.symm.trans same
      exact already ⟨folder, mode, found⟩
    have refused' := makeDirectory_of_dot nested after checked isComponent parts text empty refused away
    have found' := (find_of_silentAfter after checked).mp found
    rw [whole]
    simp only [makeEach, String.isEmpty_iff, if_neg after.text_ne, refused', made]
    exact requireDirectory_of_find found'

/-- Nothing is made for a path without components. -/
theorem makeDirectories_of_route (none : path.route = []) : (files.makeDirectories path).2 = files := by
  obtain ⟨above, list⟩ := exists_upward path.components.length path
  rw [makeDirectories, list]
  refine makeEach_unmade above ?_ fun made isMade => ?_
  · rw [makeEach_above list fun parent isParent notEmpty => ?_]
    obtain ⟨-, last, route⟩ := Path.route_of_parent? isParent notEmpty
    simp [route] at none
  · obtain ⟨location, slash, entered, -, -⟩ := makeDirectory_eq_ok isMade
    obtain ⟨-, folder, name, named, ⟨before, blanks, -, -, text, -⟩, -⟩ := entry?_eq_ok_iff.mp entered
    rw [Path.route, text, List.filterMap_append, List.filterMap_cons_some named.component?] at none
    simp at none

end Colorization.FileSystem
