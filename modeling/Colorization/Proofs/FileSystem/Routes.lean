import Colorization.Proofs.FileSystem.Replacement
import Colorization.Proofs.FileSystem.Tree
import Colorization.Proofs.Naming
import Colorization.Proofs.Path.Directory

/-! Walks to directories along the components of a path: two paths with the same ones lead to the
same directory, so the directory of a path is the one that the path ends in. A path to anything
else ends with a name. -/
namespace Colorization.FileSystem

open Colorization.Path (component? Silent)

theorem component?_eq_none_iff {segment : Segment} :
    component? segment = none ↔ segment = [] ∨ segment = ['.'] := by
  unfold component?
  split
  next blank => simp [blank]
  next notBlank => split <;> simp [notBlank]

theorem silent_of_empty {blanks : List Segment} (empty : ∀ blank ∈ blanks, blank = []) :
    blanks.filterMap component? = [] :=
  List.filterMap_eq_nil_iff.mpr fun blank member => component?_eq_none_iff.mpr (.inl (empty blank member))

theorem component?_eq_parent_iff {segment : Segment} :
    component? segment = some .parent ↔ segment = ['.', '.'] := by
  unfold component?
  split
  next blank => rcases blank with rfl | rfl <;> simp
  next => split <;> simp [*]

theorem Named.component? {segment : Segment} (named : Named segment) :
    component? segment = some (.name (String.ofList segment)) :=
  Path.component?_eq_name_iff.mpr ⟨named.notEmpty, named.notHere, named.notUp, rfl⟩

namespace Leads

variable {files : FileSystem} {start stop : Location} {first second : List Segment}

/-- Segments that are no components lead nowhere else. -/
theorem silent_append (folder : files.node? location = some (.directory mode)) (silent : Silent first)
    (leads : Leads files used location second stop node) :
    Leads files used location (first ++ second) stop node := by
  induction first with
  | nil => exact leads
  | cons segment rest ih =>
    have none := List.filterMap_eq_nil_iff.mp silent
    have blank := component?_eq_none_iff.mp (none segment List.mem_cons_self)
    have silent' : Silent rest :=
      List.filterMap_eq_nil_iff.mpr fun other member => none other (List.mem_cons_of_mem _ member)
    exact .stay folder blank (ih silent')

/-- A walk to a directory is told by the components. -/
theorem of_components (leads : Leads files used start first stop (.directory mode))
    (same : first.filterMap component? = second.filterMap component?) :
    Leads files used start second stop (.directory mode) := by
  generalize ends : Node.directory mode = node at leads
  induction leads generalizing second with
  | @here location node there =>
    subst ends
    have silent : Silent second := same.symm
    simpa using silent_append there silent (.here there)
  | stay folder blank _ ih =>
    rw [List.filterMap_cons_none (component?_eq_none_iff.mpr blank)] at same
    exact ih same ends
  | up folder next ih =>
    rw [List.filterMap_cons_some (component?_eq_parent_iff.mpr rfl), eq_comm,
      List.filterMap_eq_cons_iff] at same
    obtain ⟨skipped, segment, rest, rfl, silent, isParent, tail⟩ := same
    rw [component?_eq_parent_iff.mp isParent]
    exact silent_append folder (List.filterMap_eq_nil_iff.mpr silent) (.up folder (ih tail.symm ends))
  | down folder named there notLink next ih =>
    rw [List.filterMap_cons_some named.component?, eq_comm, List.filterMap_eq_cons_iff] at same
    obtain ⟨skipped, segment, rest, rfl, silent, isName, tail⟩ := same
    obtain ⟨-, -, -, whole⟩ := Path.component?_eq_name_iff.mp isName
    rw [String.ofList_inj] at whole
    subst whole
    exact silent_append folder (List.filterMap_eq_nil_iff.mpr silent)
      (.down folder named there notLink (ih tail.symm ends))
  | follow folder named there next ih =>
    rw [List.filterMap_cons_some named.component?, eq_comm, List.filterMap_eq_cons_iff] at same
    obtain ⟨skipped, segment, rest, rfl, silent, isName, tail⟩ := same
    obtain ⟨-, -, -, whole⟩ := Path.component?_eq_name_iff.mp isName
    rw [String.ofList_inj] at whole
    subst whole
    refine silent_append folder (List.filterMap_eq_nil_iff.mpr silent)
      (.follow folder named there (ih ?_ ends))
    rw [List.filterMap_append, List.filterMap_append, tail]

/-- A walk that does not end in a directory has come nowhere, or its last component is a name. -/
theorem last_component {segments : List Segment} (nested : files.Nested)
    (leads : Leads files used start segments stop node) (notFolder : ∀ mode, node ≠ .directory mode) :
    (segments = [] ∧ start = stop) ∨
      ∃ name, (segments.filterMap component?).getLast? = some (.name name) := by
  induction leads with
  | here => exact .inl ⟨rfl, rfl⟩
  | @stay _ mode _ _ _ _ _ folder blank next ih =>
    rw [List.filterMap_cons_none (component?_eq_none_iff.mpr blank)]
    rcases ih notFolder with ⟨rfl, rfl⟩ | named
    · cases folder.symm.trans next.found
      exact absurd rfl (notFolder mode)
    · exact .inr named
  | @up folder _ _ _ _ _ inside next ih =>
    rw [List.filterMap_cons_some (component?_eq_parent_iff.mpr rfl)]
    rcases ih notFolder with ⟨rfl, rfl⟩ | ⟨name, last⟩
    · obtain ⟨mode, above⟩ := nested.directory_dropLast inside
      cases above.symm.trans next.found
      exact absurd rfl (notFolder mode)
    · exact .inr ⟨name, by rw [List.getLast?_cons, last]; rfl⟩
  | down folder named there notLink _ ih =>
    rw [List.filterMap_cons_some named.component?]
    rcases ih notFolder with ⟨rfl, rfl⟩ | ⟨name, last⟩
    · exact .inr ⟨_, rfl⟩
    · exact .inr ⟨name, by rw [List.getLast?_cons, last]; rfl⟩
  | @follow _ _ _ _ rest _ _ _ folder named there _ ih =>
    rw [List.filterMap_cons_some named.component?]
    right
    cases later : rest.filterMap component? with
    | nil => exact ⟨_, rfl⟩
    | cons component others =>
      rcases ih notFolder with ⟨none, -⟩ | ⟨name, last⟩
      · rw [(List.append_eq_nil_iff.mp none).2] at later
        cases later
      · rw [List.filterMap_append, later, List.getLast?_append, List.getLast?_cons] at last
        exact ⟨name, by rw [List.getLast?_cons, List.getLast?_cons]; exact last⟩

end Leads

/-- A path with a name at its end ends in its directory. -/
theorem endsIn_of_directory {files : FileSystem} {path : Path} {name : Segment}
    (found : files.find path.directory = .ok (folder, .directory mode))
    (isName : component? name = some (.name (String.ofList name))) (empty : ∀ blank ∈ blanks, blank = [])
    (text : Path.segments path.text.toList = before ++ name :: blanks) :
    EndsIn files path folder name (decide (blanks ≠ [])) := by
  have silent := silent_of_empty empty
  have route : path.route = before.filterMap component? ++ [.name (String.ofList name)] := by
    rw [Path.route, text, List.filterMap_append, List.filterMap_cons_some isName, silent]
  have named : path.fileName? = some (String.ofList name) :=
    Path.fileName?_of_route (by rw [route, List.getLast?_concat])
  obtain ⟨absolute, route'⟩ := Path.route_directory named
  obtain ⟨-, used, bound, leads⟩ := find_eq_ok_iff.mp found
  have origin : files.start path.directory = files.start path := by simp [start, absolute]
  rw [origin] at leads
  refine ⟨before, blanks, used, mode, text, empty, rfl, bound, leads.of_components ?_⟩
  exact List.append_cancel_right (route'.symm.trans route)

/-- What is put behind a path is in the directory of the whole. -/
theorem endsIn_join_of_directory {files : FileSystem} {left : Path} {name : Segment}
    (plain : Path.Plain name)
    (found : files.find (left.join ⟨String.ofList name⟩).directory = .ok (folder, .directory mode)) :
    EndsIn files (left.join ⟨String.ofList name⟩) folder name false := by
  obtain ⟨before, text⟩ := Path.segments_join_concat left plain.noSlash
  exact endsIn_of_directory found plain.component? (by simp) text

/-- The entry of a path has its file name. -/
theorem fileName?_of_entry? {files : FileSystem} {path : Path} (entered : files.entry? path = .ok (some entry)) :
    ∃ folder name, path.fileName? = some name ∧ entry.location = folder ++ [name] := by
  obtain ⟨location, slash⟩ := entry
  obtain ⟨-, folder, name, named, ⟨before, blanks, _, _, text, empty, -⟩, rfl⟩ := entry?_eq_ok_iff.mp entered
  have silent := silent_of_empty empty
  refine ⟨folder, _, Path.fileName?_of_route ?_, rfl⟩
  rw [Path.route, text, List.filterMap_append, List.filterMap_cons_some named.component?, silent,
    List.getLast?_concat]

/-- A path without a file name leads to directories only. -/
theorem directory_of_find_nameless {files : FileSystem} {path : Path} (nested : files.Nested)
    (nameless : path.fileName? = none) (found : files.find path = .ok (location, node)) :
    ∃ mode, node = .directory mode := by
  by_contra notFolder
  obtain ⟨-, used, -, leads⟩ := find_eq_ok_iff.mp found
  rcases leads.last_component nested (not_exists.mp notFolder) with ⟨none, -⟩ | ⟨name, last⟩
  · exact Path.segments_ne_nil _ none
  · rw [Path.fileName?_of_route last] at nameless
    cases nameless

/-- What is there and is no directory is there under a name. -/
theorem named_of_stat {files : FileSystem} {path : Path} {answer : Stat} (nested : files.Nested)
    (answered : files.stat path = .ok answer) (notFolder : answer.kind ≠ .directory) :
    ∃ name, path.fileName? = some name := by
  rw [← Option.ne_none_iff_exists']
  intro nameless
  obtain ⟨⟨location, node⟩, found, rest⟩ := bind_eq_ok_iff.mp answered
  obtain ⟨mode, rfl⟩ := directory_of_find_nameless nested nameless found
  cases rest
  exact notFolder rfl

end Colorization.FileSystem
