import Colorization.Fixtures
import Colorization.Proofs.FileSystem.Tree
import Colorization.Proofs.Naming
import Colorization.Proofs.Snapshot.Policy

/-! The fixtures of a directory are different files, and only their names can make them share a
baseline. -/
namespace Colorization

open Colorization.Action (Returns)

variable {host : Host} {before after : World} {fixtures : List Path}

theorem sublist_of_regularFiles {paths files : List Path}
    (ended : (regularFiles paths).run host before = (some files, after)) : files.Sublist paths := by
  induction paths generalizing before files with
  | nil =>
    cases ended
    exact .slnil
  | cons path rest ih =>
    obtain ⟨regular, looked, -, ended⟩ := Routine.run_bind_eq_some_iff.mp ended
    obtain ⟨others, seen, found, ended⟩ := Routine.run_bind_eq_some_iff.mp ended
    cases ended
    cases regular with
    | true => exact (ih found).cons_cons path
    | false => exact (ih found).cons path

/-- Discovery sorts the regular files among all that is listed in a directory. -/
theorem returns_discoverFixtures :
    Returns host (discoverFixtures directory extensions) before fixtures after ↔
      ∃ mode size looked names listed files,
        before.look host (fun files => files.stat directory) = (.ok ⟨.directory, mode, size⟩, looked) ∧
        looked.look host (fun files => files.list directory) = (.ok names, listed) ∧
        (regularFiles (names.map fun name => directory.join ⟨name⟩)).run host listed =
          (some files, after) ∧
        fixtures = (files.filter fun path => path.hasExtension extensions).mergeSort Path.notAfter := by
  constructor
  · intro returned
    obtain ⟨answer, looked, asked, rest⟩ := Action.returns_bind.mp returned
    have asked := (Action.returns_request (.stat directory)).mp asked
    split at rest
    next mode size asked =>
      obtain ⟨names, listed, list, rest⟩ := Action.returns_bind.mp rest
      obtain ⟨files, seen, found, rest⟩ := Action.returns_bind.mp rest
      obtain ⟨rfl, rfl⟩ := Action.returns_pure.mp rest
      have list := (Routine.run_ask_iff (.list directory)).mp (Action.returns_on.mp list)
      exact ⟨mode, size, looked, names, listed, files, asked, list, Action.returns_lift.mp found, rfl⟩
    next => exact absurd rest (Action.not_returns_throw _)
  · rintro ⟨mode, size, looked, names, listed, files, asked, list, found, rfl⟩
    refine Action.returns_bind.mpr ⟨_, looked, (Action.returns_request (.stat directory)).mpr asked, ?_⟩
    have list := (Routine.run_ask_iff (.list directory)).mpr list
    refine Action.returns_bind.mpr ⟨names, listed, Action.returns_on.mpr list, ?_⟩
    refine Action.returns_bind.mpr ⟨files, after, Action.returns_lift.mpr found, ?_⟩
    exact Action.returns_pure.mpr ⟨rfl, rfl⟩

/-- The fixtures are among the names of a directory. -/
theorem subperm_of_discoverFixtures
    (returned : Returns host (discoverFixtures directory extensions) before fixtures after) :
    ∃ location, fixtures.Subperm
      ((before.files.names location).map fun name => directory.join ⟨name⟩) := by
  obtain ⟨mode, size, looked, names, listed, files, asked, list, found, rfl⟩ :=
    returns_discoverFixtures.mp returned
  obtain ⟨-, listing, -⟩ := World.look_eq_ok_iff.mp list
  rw [World.files_of_look asked] at listing
  obtain ⟨⟨location, node⟩, -, listing⟩ := bind_eq_ok_iff.mp listing
  cases node with
  | file | link | device => cases listing
  | directory mode =>
    cases listing
    have regular := sublist_of_regularFiles found
    have sorted := List.mergeSort_perm (files.filter fun path => path.hasExtension extensions)
      Path.notAfter
    exact ⟨location, sorted.subperm.trans (List.filter_sublist.trans regular).subperm⟩

/-- Paths of different names in one directory. -/
def InOneDirectory (directory : Path) (paths : List Path) : Prop :=
  (∀ path ∈ paths, ∃ name, path.fileName? = some name ∧ path = directory.join ⟨name⟩) ∧
    paths.Pairwise fun one other => one.fileName? ≠ other.fileName?

theorem inOneDirectory_of_names {names : List String} (distinct : names.Nodup)
    (plain : ∀ name ∈ names, Path.Plain name.toList) :
    InOneDirectory directory (names.map fun name => directory.join ⟨name⟩) := by
  have named : ∀ name ∈ names, (directory.join ⟨name⟩).fileName? = some name := by
    intro name member
    simpa using Path.fileName?_join directory (plain name member)
  constructor
  · intro path member
    obtain ⟨name, listed, rfl⟩ := List.mem_map.mp member
    exact ⟨name, named name listed, rfl⟩
  · rw [List.pairwise_map]
    refine distinct.imp_of_mem fun {one other} listed listed' differs => ?_
    rw [named one listed, named other listed']
    exact fun same => differs (Option.some.inj same)

theorem InOneDirectory.subperm {paths some : List Path} (inside : InOneDirectory directory paths)
    (subperm : some.Subperm paths) : InOneDirectory directory some := by
  obtain ⟨named, distinct⟩ := inside
  obtain ⟨sorted, perm, sublist⟩ := subperm
  refine ⟨fun path member => named path (sublist.subset (perm.symm.subset member)), ?_⟩
  exact (perm.pairwise_iff fun differs => differs.symm).mp (distinct.sublist sublist)

/-- What discovery returns are paths of different names in the directory. -/
theorem inOneDirectory_of_discoverFixtures (tidy : before.files.Tidy)
    (returned : Returns host (discoverFixtures directory extensions) before fixtures after) :
    InOneDirectory directory fixtures := by
  obtain ⟨location, among⟩ := subperm_of_discoverFixtures returned
  refine InOneDirectory.subperm ?_ among
  exact inOneDirectory_of_names (tidy.nodup_names location) fun _ => tidy.plain_of_mem_names

/-- A directory of two empty files. -/
def pairOf (name other : String) : FileSystem where
  nodes := [(["f"], .directory FileSystem.directoryMode), (["f", name], .file 0o644 (.ofBytes .empty)),
    (["f", other], .file 0o644 (.ofBytes .empty))]
  working := []

end Colorization
