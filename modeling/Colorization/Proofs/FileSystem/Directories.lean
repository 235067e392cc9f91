import Colorization.FileSystem.Requests
import Colorization.Proofs.Except
import Colorization.Proofs.FileSystem.Change

/-! Making directories adds directories to a file system and nothing else, whether all of them
can be made or not. -/
namespace Colorization.FileSystem

/-- All is as it was, but for directories where nothing was. -/
structure Grows (before after : FileSystem) : Prop where
  node : ∀ location, after.node? location = before.node? location ∨
    before.node? location = none ∧ ∃ mode, after.node? location = some (.directory mode)
  working : after.working = before.working

theorem Grows.refl (files : FileSystem) : Grows files files := ⟨fun _ => .inl rfl, rfl⟩

theorem Grows.trans {first second third : FileSystem} (one : Grows first second)
    (two : Grows second third) : Grows first third := by
  refine ⟨fun location => ?_, two.working.trans one.working⟩
  rcases two.node location with same | ⟨free, added⟩
  · rw [same]
    exact one.node location
  · rcases one.node location with same | ⟨free', -⟩
    · exact .inr ⟨same ▸ free, added⟩
    · exact .inr ⟨free', added⟩

theorem Grows.extends {before after : FileSystem} (grows : Grows before after) :
    Extends before after := by
  refine ⟨fun location node there => ?_, grows.working⟩
  rcases grows.node location with same | ⟨free, -⟩
  · rw [same, there]
  · rw [free] at there
    cases there

/-- What is no directory was there before. -/
theorem Grows.node_iff {before after : FileSystem} {node : Node} (grows : Grows before after)
    (notFolder : ∀ mode, node ≠ .directory mode) :
    after.node? location = some node ↔ before.node? location = some node := by
  rcases grows.node location with same | ⟨free, mode, added⟩
  · rw [same]
  · rw [free, added]
    simpa [eq_comm] using notFolder mode

/-- The regular file at the location is there as it was, or none is there and none was. -/
def FileKept (before after : FileSystem) (location : Location) : Prop :=
  ∀ mode content, after.node? location = some (.file mode content) ↔
    before.node? location = some (.file mode content)

theorem Grows.fileKept {before after : FileSystem} (grows : Grows before after) (location : Location) :
    FileKept before after location :=
  fun _ _ => grows.node_iff nofun

theorem grows_set {files : FileSystem} (free : files.node? location = none)
    (notRoot : location ≠ []) : Grows files (files.set location (.directory mode)) := by
  refine ⟨fun other => ?_, rfl⟩
  by_cases same : other = location
  · subst same
    exact .inr ⟨free, mode, node?_set_self notRoot _⟩
  · exact .inl (node?_set_of_ne same _)

/-- A directory is made where nothing was, in a directory. -/
theorem makeDirectory_eq_ok {files after : FileSystem} {path : Path}
    (made : files.makeDirectory path = .ok after) :
    ∃ location slash, files.entry? path = .ok (some ⟨location, slash⟩) ∧
      files.node? location = none ∧ after = files.set location (.directory directoryMode) := by
  obtain ⟨entry, entered, rest⟩ := bind_eq_ok_iff.mp made
  cases entry with
  | none => cases rest
  | some entry =>
    simp only at rest
    split at rest
    · cases rest
    next free =>
      cases rest
      exact ⟨entry.location, entry.slash, entered, free, rfl⟩

theorem grows_makeDirectory {files made : FileSystem} {path : Path}
    (succeeded : files.makeDirectory path = .ok made) : Grows files made := by
  obtain ⟨location, slash, entered, free, rfl⟩ := makeDirectory_eq_ok succeeded
  exact grows_set free (location_ne_nil entered)

theorem requireDirectory_cases (files : FileSystem) (path : Path) :
    (files.requireDirectory path).2 = files ∨
      files.makeDirectory path = .ok (files.requireDirectory path).2 := by
  unfold requireDirectory
  split
  next made => exact .inr made
  next => exact .inl rfl

section Making

variable {holds : FileSystem → Prop}

theorem requireDirectory_keeps {files : FileSystem} {path : Path}
    (step : ∀ {files path after}, files.makeDirectory path = .ok after → holds files → holds after)
    (first : holds files) : holds (files.requireDirectory path).2 := by
  rcases requireDirectory_cases files path with same | made
  · rwa [same]
  · exact step made first

theorem makeEach_keeps {files : FileSystem}
    (step : ∀ {files path after}, files.makeDirectory path = .ok after → holds files → holds after)
    (first : holds files) (paths : List Path) : holds (files.makeEach paths).2 := by
  induction paths with
  | nil => exact first
  | cons path above ih =>
    unfold makeEach
    split
    · exact first
    · split
      next =>
        split
        next made => rw [made] at ih; exact ih
        next made =>
          rw [made] at ih
          exact requireDirectory_keeps step ih
      next => exact requireDirectory_keeps step first

/-- What every directory that is made keeps is kept by all of them. -/
theorem makeDirectories_keeps {files : FileSystem}
    (step : ∀ {files path after}, files.makeDirectory path = .ok after → holds files → holds after)
    (first : holds files) (path : Path) : holds (files.makeDirectories path).2 :=
  makeEach_keeps step first _

end Making

theorem grows_makeDirectories (files : FileSystem) (path : Path) :
    Grows files (files.makeDirectories path).2 :=
  makeDirectories_keeps (fun made grows => grows.trans (grows_makeDirectory made)) (.refl files) path

theorem extends_makeDirectories (files : FileSystem) (path : Path) :
    Extends files (files.makeDirectories path).2 :=
  (grows_makeDirectories files path).extends

end Colorization.FileSystem
