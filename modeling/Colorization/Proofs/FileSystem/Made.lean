import Colorization.Proofs.FileSystem.Routes
import Colorization.Proofs.FileSystem.Tree

/-! What the directories that are made lead to: nothing that was there before, as long as a path
does not climb out of them again. -/
namespace Colorization.FileSystem

variable {files after : FileSystem} {path target : Path}

theorem Rooted.set_directory (rooted : files.Rooted)
    (inside : files.node? folder = some (.directory mode)) (name : String) :
    (files.set (folder ++ [name]) (.directory mode')).Rooted := by
  intro location node there notRoot
  by_cases new : location = folder ++ [name]
  · subst new
    refine ⟨mode, ?_⟩
    rw [List.dropLast_concat, node?_set_of_ne (by simp), inside]
  · rw [node?_set_of_ne new] at there
    obtain ⟨mode'', above⟩ := rooted location node there notRoot
    by_cases same : location.dropLast = folder ++ [name]
    · exact ⟨mode', by rw [same, node?_set_self (by simp)]⟩
    · exact ⟨mode'', by rw [node?_set_of_ne same, above]⟩

/-- The entry of a path is in a directory. -/
theorem exists_folder_of_entry? (entered : files.entry? path = .ok (some ⟨location, slash⟩)) :
    ∃ mode, files.node? location.dropLast = some (.directory mode) := by
  obtain ⟨-, folder, name, -, ⟨_, _, _, mode, _, _, _, _, leads⟩, rfl⟩ := entry?_eq_ok_iff.mp entered
  exact ⟨mode, by rw [List.dropLast_concat, leads.found]⟩

theorem Nested.set_directory (nested : files.Nested) (free : files.node? location = none)
    (inside : files.node? location.dropLast = some (.directory mode)) :
    (files.set location (.directory mode')).Nested := by
  have more := extends_set free (.directory mode')
  intro other mode'' there notRoot
  by_cases new : other = location
  · subst new
    exact ⟨mode, more.node _ _ inside⟩
  · rw [node?_set_of_ne new] at there
    obtain ⟨mode, above⟩ := nested other mode'' there notRoot
    exact ⟨mode, more.node _ _ above⟩

theorem Rooted.makeDirectory (rooted : files.Rooted) (made : files.makeDirectory path = .ok after) :
    after.Rooted := by
  obtain ⟨location, slash, entered, -, rfl⟩ := makeDirectory_eq_ok made
  obtain ⟨-, folder, name, -, ⟨_, _, _, mode, _, _, _, _, leads⟩, rfl⟩ := entry?_eq_ok_iff.mp entered
  exact rooted.set_directory leads.found _

theorem Nested.makeDirectory (nested : files.Nested) (made : files.makeDirectory path = .ok after) :
    after.Nested := by
  obtain ⟨location, slash, entered, free, rfl⟩ := makeDirectory_eq_ok made
  obtain ⟨mode, inside⟩ := exists_folder_of_entry? entered
  exact nested.set_directory free inside

/-- Directories have been made, each in one that was there. -/
structure Branches (before after : FileSystem) : Prop where
  grows : Grows before after
  nested : before.Nested → after.Nested

theorem Branches.refl (files : FileSystem) : Branches files files := ⟨.refl files, id⟩

theorem branches_makeDirectories (files : FileSystem) (path : Path) :
    Branches files (files.makeDirectories path).2 :=
  ⟨grows_makeDirectories files path, fun nested =>
    makeDirectories_keeps (fun made nested => nested.makeDirectory made) nested path⟩

/-- Nothing is new, or the directory that was made last is one of these. -/
def LastMade (files after : FileSystem) (paths : List Path) : Prop :=
  after = files ∨ ∃ path ∈ paths, path.text ≠ "" ∧
    ∃ earlier : FileSystem, earlier.Rooted ∧ earlier.makeDirectory path = .ok after

theorem lastMade_makeEach (rooted : files.Rooted) (paths : List Path) :
    (files.makeEach paths).2.Rooted ∧ LastMade files (files.makeEach paths).2 paths := by
  induction paths with
  | nil => exact ⟨rooted, .inl rfl⟩
  | cons path above ih =>
    have require : ∀ {earlier : FileSystem}, earlier.Rooted → LastMade files earlier (path :: above) →
        path.text ≠ "" → (earlier.requireDirectory path).2.Rooted ∧
          LastMade files (earlier.requireDirectory path).2 (path :: above) := by
      intro earlier rooted last notEmpty
      rcases requireDirectory_cases earlier path with same | made
      · rw [same]
        exact ⟨rooted, last⟩
      · exact ⟨rooted.makeDirectory made, .inr ⟨path, List.mem_cons_self, notEmpty, earlier, rooted, made⟩⟩
    have weaken : ∀ {after}, LastMade files after above → LastMade files after (path :: above) := by
      rintro after (same | ⟨other, member, made⟩)
      · exact .inl same
      · exact .inr ⟨other, List.mem_cons_of_mem _ member, made⟩
    unfold makeEach
    split
    · exact ⟨rooted, .inl rfl⟩
    next notEmpty =>
      have notEmpty : path.text ≠ "" := by simpa using notEmpty
      split
      next =>
        split
        next made =>
          rw [made] at ih
          exact ⟨ih.1, weaken ih.2⟩
        next made =>
          rw [made] at ih
          exact require ih.1 (weaken ih.2) notEmpty
      next => exact require rooted (.inl rfl) notEmpty

/-- A directory that was just made stands where nothing was. -/
theorem find_of_makeDirectory (made : files.makeDirectory path = .ok after) :
    ∃ folder name mode, files.node? (folder ++ [name]) = none ∧ path.route ≠ [] ∧
      after = files.set (folder ++ [name]) (.directory mode) ∧
      after.find path = .ok (folder ++ [name], .directory mode) := by
  obtain ⟨location, slash, entered, free, rfl⟩ := makeDirectory_eq_ok made
  obtain ⟨checked, folder, name, named, ⟨before, blanks, used, mode, text, empty, -, bound, leads⟩, rfl⟩ :=
    entry?_eq_ok_iff.mp entered
  have there : (files.set _ (.directory directoryMode)).node? (folder ++ [String.ofList name]) = _ :=
    node?_set_self (location_ne_nil entered) _
  have toFolder := leads.of_extends (extends_set free (.directory directoryMode))
  have last := Leads.blanks there empty
  have whole := toFolder.append (.down toFolder.found named there nofun last)
  rw [← text] at whole
  refine ⟨folder, _, directoryMode, free, ?_, rfl, find_eq_ok_iff.mpr ⟨checked, used, bound, whole⟩⟩
  rw [Path.route, text, List.filterMap_append, List.filterMap_cons_some named.component?]
  simp

/-- Nothing is in it. -/
theorem free_of_makeDirectory (rooted : files.Rooted) (made : files.makeDirectory path = .ok after) :
    ∃ location mode, after.find path = .ok (location, .directory mode) ∧ path.route ≠ [] ∧
      ∀ name, after.node? (location ++ [name]) = none := by
  obtain ⟨folder, name, mode, free, route, rfl, found⟩ := find_of_makeDirectory made
  refine ⟨_, mode, found, route, fun inner => ?_⟩
  rw [node?_set_of_ne (by simp)]
  cases inside : files.node? (folder ++ [name] ++ [inner]) with
  | none => rfl
  | some node =>
    obtain ⟨mode', above⟩ := rooted _ node inside (by simp)
    rw [List.dropLast_concat, free] at above
    cases above

/-- From an empty directory a walk can only climb. -/
theorem Leads.climbs (leads : Leads files used location segments stop node)
    (free : ∀ name, files.node? (location ++ [name]) = none) :
    segments.filterMap Path.component? = [] ∨
      .parent ∈ segments.filterMap Path.component? := by
  induction leads with
  | here => exact .inl rfl
  | stay _ blank _ ih =>
    rw [List.filterMap_cons_none (component?_eq_none_iff.mpr blank)]
    exact ih free
  | up =>
    rw [List.filterMap_cons_some (component?_eq_parent_iff.mpr rfl)]
    exact .inr List.mem_cons_self
  | down _ _ there | follow _ _ there =>
    rw [free] at there
    cases there

/-- Nothing is found beyond a directory that was just made. -/
theorem not_find_of_makeDirectory (rooted : files.Rooted)
    (made : files.makeDirectory path = .ok after) (absolute : path.isAbsolute = target.isAbsolute)
    (route : target.route = path.route ++ more) (notEmpty : more ≠ []) (level : .parent ∉ more) :
    after.find target ≠ .ok (stop, node) := by
  intro found
  obtain ⟨location, mode, toPath, -, free⟩ := free_of_makeDirectory rooted made
  obtain ⟨-, _, -, leads⟩ := find_eq_ok_iff.mp toPath
  obtain ⟨-, _, -, onward⟩ := find_eq_ok_iff.mp found
  obtain ⟨first, second, text, before, behind⟩ := List.filterMap_eq_append_iff.mp route
  rw [text] at onward
  obtain ⟨_, _, middle, between, -, toMiddle, rest⟩ := onward.split
  have origin : after.start path = after.start target := by simp [start, absolute]
  rw [origin] at leads
  obtain ⟨rfl, -⟩ := toMiddle.unique (leads.of_components before.symm)
  rcases rest.climbs free with none | climbing
  · exact notEmpty (behind ▸ none)
  · exact level (behind ▸ climbing)

theorem upward_empty (depth : Nat) : upward depth ⟨""⟩ = [⟨""⟩] := by
  cases depth <;> rfl

theorem route_of_mem_upward (member : path ∈ upward depth target) (notEmpty : path.text ≠ "") :
    path.isAbsolute = target.isAbsolute ∧ ∃ more, target.route = path.route ++ more := by
  induction depth generalizing target with
  | zero =>
    cases List.mem_singleton.mp member
    exact ⟨rfl, [], by simp⟩
  | succ depth ih =>
    unfold upward at member
    split at member
    · cases List.mem_singleton.mp member
      exact ⟨rfl, [], by simp⟩
    next parent isParent =>
      rcases List.mem_cons.mp member with rfl | higher
      · exact ⟨rfl, [], by simp⟩
      · obtain ⟨absolute, more, route⟩ := ih higher
        have parentNotEmpty : parent.text ≠ "" := by
          intro empty
          have same : parent = ⟨""⟩ := congrArg Path.mk empty
          rw [same, upward_empty, List.mem_singleton] at higher
          exact notEmpty (congrArg Path.text higher)
        obtain ⟨absolute', last, route'⟩ := Path.route_of_parent? isParent parentNotEmpty
        exact ⟨absolute.trans absolute', more ++ [last], by rw [route', route, List.append_assoc]⟩

theorem Rooted.makeDirectories (rooted : files.Rooted) (path : Path) :
    (files.makeDirectories path).2.Rooted :=
  (lastMade_makeEach rooted _).1

/-- A path that goes on behind a directory, and does not climb, leads to what it led to before the
directory and those above it were made. -/
theorem find_of_find_made {place : Location × Node} (rooted : files.Rooted)
    (absolute : path.isAbsolute = target.isAbsolute) (route : target.route = path.route ++ more)
    (notEmpty : more ≠ []) (level : .parent ∉ target.components)
    (found : (files.makeDirectories path).2.find target = .ok place) : files.find target = .ok place := by
  obtain ⟨-, same | ⟨above, member, text, earlier, rooted, made⟩⟩ :=
    lastMade_makeEach rooted (upward path.components.length path)
  · rw [FileSystem.makeDirectories, same] at found
    exact found
  · obtain ⟨absolute', more', route'⟩ := route_of_mem_upward member text
    rw [route', List.append_assoc] at route
    refine absurd found (not_find_of_makeDirectory rooted made (absolute'.trans absolute) route
      (by simp [notEmpty]) fun climbs => level (Path.mem_route ?_))
    rw [route]
    exact List.mem_append_right _ climbs

/-- Without a file name and without climbing a path leads to where it begins. -/
theorem makeDirectories_of_nameless (rooted : files.Rooted) (nameless : path.fileName? = none)
    (level : .parent ∉ path.components) : (files.makeDirectories path.directory).2 = files := by
  obtain ⟨-, same | ⟨above, member, text, earlier, rooted, made⟩⟩ :=
    lastMade_makeEach rooted (upward path.directory.components.length path.directory)
  · exact same
  · obtain ⟨-, more, route⟩ := route_of_mem_upward member text
    obtain ⟨_, _, -, notRoot, -⟩ := free_of_makeDirectory rooted made
    rw [Path.directory_of_nameless nameless level] at route
    exact absurd (List.append_eq_nil_iff.mp route.symm).1 notRoot

/-- A path that does not climb leads to what it led to before the directories above it were
made, or still to nothing. -/
theorem find_prepared_iff (rooted : files.Rooted) (level : .parent ∉ target.components) :
    (∃ place, (files.prepared target).find target = .ok place) ↔
      ∃ place, files.find target = .ok place := by
  constructor
  · rintro ⟨place, found⟩
    cases named : target.fileName? with
    | none =>
      rw [prepared, makeDirectories_of_nameless rooted named level] at found
      exact ⟨place, found⟩
    | some name =>
      obtain ⟨absolute, route⟩ := Path.route_directory named
      exact ⟨place, find_of_find_made rooted absolute route (by simp) level found⟩
  · rintro ⟨⟨stop, node⟩, found⟩
    exact ⟨_, find_of_extends (extends_makeDirectories files _) found⟩

end Colorization.FileSystem
