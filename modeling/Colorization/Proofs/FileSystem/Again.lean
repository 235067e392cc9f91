import Colorization.Proofs.FileSystem.Answers

/-! Making a directory and those above it once more makes nothing that the first time did not,
whether all of them could be made or not. -/
namespace Colorization.FileSystem

variable {files after : FileSystem} {path parent : Path} {folder : Location}

theorem check_eq_ok_iff : check path = .ok () ↔
    '\x00' ∉ path.text.toList ∧ path.text ≠ "" ∧ path.text.utf8ByteSize < pathLimit := by
  unfold check
  by_cases nul : '\x00' ∈ path.text.toList
  · simp [nul]
  by_cases empty : path.text = ""
  · simp [empty]
  by_cases long : pathLimit ≤ path.text.utf8ByteSize
  · simp [nul, empty, long]
  · simp [nul, empty, long, Nat.lt_of_not_le long]

/-- The text of a parent is the beginning of the path's. -/
theorem check_parent (checked : check path = .ok ()) (isParent : path.parent? = some parent)
    (notEmpty : parent.text ≠ "") : check parent = .ok () := by
  obtain ⟨noNul, -, short⟩ := check_eq_ok_iff.mp checked
  obtain ⟨stop, text⟩ : ∃ stop, parent.text = String.ofList (path.text.toList.take stop) := by
    unfold Path.parent? at isParent
    split at isParent
    · cases isParent
    · cases isParent
    · cases isParent
      exact absurd rfl notEmpty
    · cases isParent
      exact ⟨_, rfl⟩
  have whole : path.text = parent.text ++ String.ofList (path.text.toList.drop stop) := by
    rw [text, ← String.ofList_append, List.take_append_drop, String.ofList_toList]
  refine check_eq_ok_iff.mpr ⟨fun nul => noNul ?_, notEmpty, ?_⟩
  · rw [text, String.toList_ofList] at nul
    exact List.mem_of_mem_take nul
  · rw [whole, String.utf8ByteSize_append] at short
    omega

/-- The components before the last lead to a directory. -/
theorem find_parent (checked : check path = .ok ()) (isParent : path.parent? = some parent)
    (notEmpty : parent.text ≠ "") (bound : used ≤ maxLinks)
    (route : before.filterMap Path.component? = parent.route)
    (leads : Leads files used (files.start path) before folder (.directory mode)) :
    files.find parent = .ok (folder, .directory mode) := by
  obtain ⟨absolute, -⟩ := Path.route_of_parent? isParent notEmpty
  have origin : files.start path = files.start parent := by simp [start, absolute]
  rw [origin] at leads
  exact find_eq_ok_iff.mpr ⟨check_parent checked isParent notEmpty, used, bound,
    leads.of_components route⟩

/-- What is there is in a directory. -/
theorem find_parent_of_find (found : files.find path = .ok (folder, node))
    (isParent : path.parent? = some parent) (notEmpty : parent.text ≠ "") :
    ∃ folder' mode', files.find parent = .ok (folder', .directory mode') := by
  obtain ⟨checked, used, bound, leads⟩ := find_eq_ok_iff.mp found
  obtain ⟨-, last, route⟩ := Path.route_of_parent? isParent notEmpty
  obtain ⟨first, second, text, before, isLast⟩ := List.filterMap_eq_append_iff.mp route
  rw [text] at leads
  obtain ⟨used₁, used₂, middle, between, rfl, toMiddle, rest⟩ := leads.split
  have more : second ≠ [] := by
    rintro rfl
    cases isLast
  obtain ⟨mode', isFolder⟩ := rest.begins more
  cases toMiddle.found.symm.trans isFolder
  exact ⟨middle, mode', find_parent checked isParent notEmpty (by omega) before toMiddle⟩

/-- From the root a walk without components comes to the root. -/
theorem not_silent_of_absolute {rest : List Segment} (checked : check path = .ok ())
    (text : Path.segments path.text.toList = [] :: rest) (silent : Path.Silent rest)
    (leads : Leads files used (files.start path) ([] :: rest) folder node)
    (notFolder : ∀ mode, node ≠ .directory mode) : False := by
  rcases Path.eq_or_slash_of_segments text with ⟨-, whole⟩ | ⟨later, whole, -⟩
  · exact (check_eq_ok_iff.mp checked).2.1 (String.toList_eq_nil_iff.mp whole)
  · have absolute : path.isAbsolute = true := by simp [Path.isAbsolute, whole]
    have root : files.node? [] = some (.directory directoryMode) := rfl
    have all : Path.Silent ([] :: rest) := (List.filterMap_cons_none rfl).trans silent
    have back := Leads.silent_append root all (.here root)
    rw [List.append_nil] at back
    rw [start, absolute] at leads
    exact notFolder _ (leads.unique back).2

/-- The directory of a file is there. -/
theorem find_directory_of_find (found : files.find path = .ok (folder, node))
    (notFolder : ∀ mode, node ≠ .directory mode) :
    ∃ folder' mode', files.find path.directory = .ok (folder', .directory mode') := by
  obtain ⟨checked, used, bound, leads⟩ := find_eq_ok_iff.mp found
  rcases Path.segments_cases path with ⟨first, rest, text, silent⟩ |
    ⟨first, before, segment, behind, last, text, isLast, silent⟩
  · rw [Path.directory_of_silent text silent]
    rw [text] at leads
    have relative : first ≠ [] := by
      rintro rfl
      exact not_silent_of_absolute checked text silent leads notFolder
    obtain ⟨mode, isFolder⟩ := leads.begins (List.cons_ne_nil _ _)
    have here : Path.isAbsolute ⟨"."⟩ = false := by decide
    have origin : files.start path = files.start ⟨"."⟩ := by
      rw [start, start, Path.isAbsolute_of_segments text relative, here]
    rw [origin] at isFolder
    exact ⟨_, mode, find_eq_ok_iff.mpr ⟨rfl, 0, Nat.zero_le _, .stay isFolder (.inr rfl) (.here isFolder)⟩⟩
  · obtain ⟨parent, isParent, notEmpty, -, -⟩ := Path.parent?_of_segments text isLast silent
    have same : path.directory = parent := by simp [Path.directory, isParent, notEmpty]
    exact same ▸ find_parent_of_find found isParent notEmpty

/-- Nothing is made above a file that is there. -/
theorem prepared_of_find (found : files.find path = .ok (folder, node))
    (notFolder : ∀ mode, node ≠ .directory mode) : files.prepared path = files := by
  obtain ⟨above, mode, there⟩ := find_directory_of_find found notFolder
  rw [prepared, makeDirectories_of_find there]

/-- And so is a directory that is made. -/
theorem find_parent_of_makeDirectory (made : files.makeDirectory path = .ok after)
    (isParent : path.parent? = some parent) (notEmpty : parent.text ≠ "") :
    ∃ folder mode, files.find parent = .ok (folder, .directory mode) := by
  obtain ⟨location, slash, entered, -, -⟩ := makeDirectory_eq_ok made
  obtain ⟨checked, folder, name, named, ⟨before, blanks, used, mode, text, empty, -, bound, leads⟩, -⟩ :=
    entry?_eq_ok_iff.mp entered
  obtain ⟨-, last, route⟩ := Path.route_of_parent? isParent notEmpty
  have silent : blanks.filterMap Path.component? = [] :=
    List.filterMap_eq_nil_iff.mpr fun blank member =>
      component?_eq_none_iff.mpr (.inl (empty blank member))
  have same : before.filterMap Path.component? ++ [.name (String.ofList name)] =
      parent.route ++ [last] := by
    rw [← route, Path.route, text, List.filterMap_append, List.filterMap_cons_some named.component?,
      silent]
  obtain ⟨same, -⟩ := List.append_inj' same rfl
  exact ⟨folder, mode, find_parent checked isParent notEmpty bound same leads⟩

theorem not_find_of_requireDirectory (refused : (files.requireDirectory path).1 = .error error) :
    (files.requireDirectory path).2 = files ∧
      ∀ folder mode, files.find path ≠ .ok (folder, .directory mode) := by
  unfold requireDirectory at refused ⊢
  split at refused
  · cases refused
  next error' unmade =>
    refine ⟨rfl, fun folder mode found => ?_⟩
    rw [isDirectory_iff.mpr ⟨folder, mode, found⟩] at refused
    cases refused

/-- Where the directory cannot be made nothing is, if nothing more is made above it. -/
theorem makeEach_unmade (above : List Path) (same : (files.makeEach above).2 = files)
    (unmade : ∀ after, files.makeDirectory path ≠ .ok after) :
    (files.makeEach (path :: above)).2 = files := by
  have required : (files.requireDirectory path).2 = files :=
    (requireDirectory_cases files path).resolve_right (unmade _)
  unfold makeEach
  split
  · rfl
  split
  next =>
    split
    next made => rw [made] at same; exact same
    next made =>
      rw [made] at same
      cases same
      exact required
  next => exact required

/-- A directory that is required is there or cannot be made. -/
theorem requireDirectory_again (files : FileSystem) (path : Path) :
    (∃ folder mode, (files.requireDirectory path).2.find path = .ok (folder, .directory mode)) ∨
      (files.requireDirectory path).2 = files ∧ ∀ after, files.makeDirectory path ≠ .ok after := by
  cases made : files.makeDirectory path with
  | ok after =>
    obtain ⟨folder, name, mode, -, -, -, found⟩ := find_of_makeDirectory made
    refine .inl ⟨folder ++ [name], mode, ?_⟩
    simpa [requireDirectory, made] using found
  | error error =>
    refine .inr ⟨?_, fun after same => by cases same⟩
    simp [requireDirectory, made]

/-- Where not all directories could be made the last of them is not there, as it would be in one
that is not. -/
theorem not_find_of_makeEach_cons (failed : (files.makeEach (path :: above)).1 = .error error)
    (higher : ∀ error, (files.makeEach above).1 = .error error →
      ∀ folder mode, (files.makeEach above).2.find path ≠ .ok (folder, .directory mode)) :
    ∀ folder mode, (files.makeEach (path :: above)).2.find path ≠ .ok (folder, .directory mode) := by
  have required : ∀ {between : FileSystem}, (between.requireDirectory path).1 = .error error →
      ∀ folder mode, (between.requireDirectory path).2.find path ≠ .ok (folder, .directory mode) := by
    intro between refused
    obtain ⟨same, lacks⟩ := not_find_of_requireDirectory refused
    rw [same]
    exact lacks
  unfold makeEach at failed ⊢
  split at failed
  · cases failed
  next notEmpty =>
    rw [if_neg notEmpty]
    split at failed
    next =>
      split at failed
      next error' between made =>
        rw [made] at higher
        exact higher error' rfl
      next => exact required failed
    next => exact required failed

/-- The empty path is always there. -/
theorem text_ne_of_makeEach (failed : (files.makeEach (upward depth path)).1 = .error error) :
    path.text ≠ "" := by
  intro empty
  obtain ⟨above, list⟩ := exists_upward depth path
  rw [list, makeEach, empty] at failed
  cases failed

theorem not_find_of_makeEach (depth : Nat) (path : Path)
    (failed : (files.makeEach (upward depth path)).1 = .error error) :
    ∀ folder mode, (files.makeEach (upward depth path)).2.find path ≠ .ok (folder, .directory mode) := by
  induction depth generalizing path error with
  | zero => exact not_find_of_makeEach_cons failed nofun
  | succ depth ih =>
    unfold upward at failed ⊢
    split at failed
    · exact not_find_of_makeEach_cons failed nofun
    next parent isParent =>
      refine not_find_of_makeEach_cons failed fun error' failed' folder mode found => ?_
      have notEmpty := text_ne_of_makeEach failed'
      obtain ⟨folder', mode', above⟩ := find_parent_of_find found isParent notEmpty
      exact ih parent failed' folder' mode' above

/-- What was made, or required, is there, or it cannot be made where those above it are made. -/
theorem makeEach_cons_again (higher : ((files.makeEach above).2.makeEach above).2 = (files.makeEach above).2)
    (lacks : ∀ error, (files.makeEach above).1 = .error error →
      ∀ after, (files.makeEach above).2.makeDirectory path ≠ .ok after) :
    ((files.makeEach (path :: above)).2.makeEach (path :: above)).2 =
      (files.makeEach (path :: above)).2 := by
  generalize first : files.makeEach (path :: above) = result
  have whole := first
  unfold makeEach at first
  split at first
  next empty =>
    subst first
    simp [makeEach, empty]
  split at first
  next =>
    split at first
    next error between made =>
      subst first
      rw [made] at higher lacks
      exact makeEach_unmade above higher (lacks error rfl)
    next between made =>
      subst first
      rw [made] at higher
      rcases requireDirectory_again between path with ⟨folder, mode, found⟩ | ⟨same, unmade⟩
      · rw [makeEach_of_find found]
      · rw [same]
        exact makeEach_unmade above higher unmade
  next =>
    subst first
    rcases requireDirectory_again files path with ⟨folder, mode, found⟩ | ⟨same, -⟩
    · rw [makeEach_of_find found]
    · rw [same, whole, same]

theorem makeEach_again (files : FileSystem) (depth : Nat) (path : Path) :
    ((files.makeEach (upward depth path)).2.makeEach (upward depth path)).2 =
      (files.makeEach (upward depth path)).2 := by
  induction depth generalizing path with
  | zero => exact makeEach_cons_again rfl nofun
  | succ depth ih =>
    rw [upward]
    split
    · exact makeEach_cons_again rfl nofun
    next parent isParent =>
      refine makeEach_cons_again (ih parent) fun error failed after made => ?_
      have notEmpty := text_ne_of_makeEach failed
      obtain ⟨folder, mode, found⟩ := find_parent_of_makeDirectory made isParent notEmpty
      exact not_find_of_makeEach depth parent failed folder mode found

theorem makeDirectories_again (files : FileSystem) (path : Path) :
    ((files.makeDirectories path).2.makeDirectories path).2 = (files.makeDirectories path).2 :=
  makeEach_again files _ path

end Colorization.FileSystem
