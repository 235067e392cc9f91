import Colorization.Proofs.FileSystem.Firm
import Colorization.Proofs.FileSystem.Made
import Mathlib.Data.Set.Basic

/-! File systems without links, and files of some names that come into them. What any other name
leads to is not changed by that. -/
namespace Colorization.FileSystem

def LinkFree (files : FileSystem) : Prop :=
  ∀ location target, files.node? location ≠ some (.link target)

/-- That there are no links is seen from the nodes. -/
theorem linkFree_of_nodes {files : FileSystem} (plain : (files.nodes.all fun entry =>
    match entry.2 with | .link _ => false | _ => true) = true) : files.LinkFree := by
  intro location target isLink
  by_cases root : location = []
  · rw [node?, if_pos root] at isLink
    cases isLink
  · rw [node?, if_neg root] at isLink
    obtain ⟨entry, found, same⟩ := Option.map_eq_some_iff.mp isLink
    have notLink := List.all_eq_true.mp plain entry (List.mem_of_find?_eq_some found)
    rw [same] at notLink
    cases notLink

variable {files before after : FileSystem} {path left : Path} {name : Segment} {bytes : ByteArray}

theorem Grows.linkFree (grows : Grows before after) (linkFree : before.LinkFree) : after.LinkFree := by
  intro location target isLink
  refine linkFree location target ((grows.node_iff ?_).mp isLink)
  nofun

/-- What is found under a name is there under this name. -/
theorem LinkFree.getLast?_of_find (linkFree : files.LinkFree) (plain : Path.Plain name)
    (found : files.find (left.join ⟨String.ofList name⟩) = .ok (location, node)) :
    location.getLast? = some (String.ofList name) := by
  obtain ⟨before, text⟩ := Path.segments_join_concat left plain.noSlash
  obtain ⟨-, used, -, leads⟩ := find_eq_ok_iff.mp found
  rw [text] at leads
  obtain ⟨_, _, middle, _, -, -, onward⟩ := leads.split
  cases onward with
  | stay _ blank => exact absurd blank (by simp [plain.notEmpty, plain.notHere])
  | up => exact absurd rfl plain.notUp
  | down _ _ _ _ rest =>
    cases rest
    rw [List.getLast?_concat]
  | follow _ _ isLink => exact absurd isLink (linkFree _ _)

/-- A file is put into a directory, and not in the place of another directory. -/
structure Put (before after : FileSystem) (location : Location) : Prop where
  file : ∃ mode content, after.node? location = some (.file mode content)
  inside : ∃ mode, before.node? location.dropLast = some (.directory mode)
  notFolder : ∀ mode, before.node? location ≠ some (.directory mode)

/-- All is as it was but for files of these names. -/
structure Stocked (names : Set String) (before after : FileSystem) : Prop where
  working : after.working = before.working
  node : ∀ location, after.node? location = before.node? location ∨
    Put before after location ∧ ∃ name ∈ names, location.getLast? = some name

namespace Stocked

variable {names : Set String}

theorem refl (names : Set String) (files : FileSystem) : Stocked names files files :=
  ⟨rfl, fun _ => .inl rfl⟩

theorem mono {names' : Set String} (stocked : Stocked names before after) (subset : names ⊆ names') :
    Stocked names' before after := by
  refine ⟨stocked.working, fun location => (stocked.node location).imp_right ?_⟩
  rintro ⟨put, name, member, last⟩
  exact ⟨put, name, subset member, last⟩

theorem directory_iff (stocked : Stocked names before after) :
    after.node? location = some (.directory mode) ↔ before.node? location = some (.directory mode) := by
  rcases stocked.node location with same | ⟨put, -⟩
  · rw [same]
  · obtain ⟨_, _, isFile⟩ := put.file
    rw [isFile]
    exact ⟨nofun, fun isFolder => absurd isFolder (put.notFolder mode)⟩

theorem linkFree (stocked : Stocked names before after) (linkFree : before.LinkFree) : after.LinkFree := by
  intro location target isLink
  rcases stocked.node location with same | ⟨put, -⟩
  · exact linkFree location target (same ▸ isLink)
  · obtain ⟨_, _, isFile⟩ := put.file
    rw [isFile] at isLink
    cases isLink

theorem rooted (stocked : Stocked names before after) (rooted : before.Rooted) : after.Rooted := by
  intro location node there notRoot
  have above : ∃ mode, before.node? location.dropLast = some (.directory mode) := by
    rcases stocked.node location with same | ⟨put, -⟩
    · exact rooted location node (same ▸ there) notRoot
    · exact put.inside
  obtain ⟨mode, above⟩ := above
  exact ⟨mode, stocked.directory_iff.mpr above⟩

/-- What has no name among these was there. -/
theorem node_of_not_mem {name : String} (stocked : Stocked names before after)
    (last : location.getLast? = some name) (other : name ∉ names) :
    after.node? location = before.node? location := by
  rcases stocked.node location with same | ⟨-, name', member, last'⟩
  · exact same
  · cases last.symm.trans last'
    exact absurd member other

/-- Another name leads to what it led to. -/
theorem find_iff (stocked : Stocked names before after) (linkFree : before.LinkFree)
    (plain : Path.Plain name) (other : String.ofList name ∉ names) {place : Location × Node} :
    after.find (left.join ⟨String.ofList name⟩) = .ok place ↔
      before.find (left.join ⟨String.ofList name⟩) = .ok place := by
  obtain ⟨location, node⟩ := place
  have there : ∀ {files : FileSystem}, files.find (left.join ⟨String.ofList name⟩) = .ok (location, node) →
      files.node? location = some node := fun found => by
    obtain ⟨-, _, -, leads⟩ := find_eq_ok_iff.mp found
    exact leads.found
  constructor
  · intro found
    have last := (stocked.linkFree linkFree).getLast?_of_find plain found
    have firm : Firm after before := ⟨fun _ _ isFolder => stocked.directory_iff.mp isFolder,
      fun _ _ isLink => absurd isLink (stocked.linkFree linkFree _ _), stocked.working.symm⟩
    exact find_of_firm firm found ((stocked.node_of_not_mem last other).symm.trans (there found))
  · intro found
    have last := linkFree.getLast?_of_find plain found
    have firm : Firm before after := ⟨fun _ _ isFolder => stocked.directory_iff.mpr isFolder,
      fun _ _ isLink => absurd isLink (linkFree _ _), stocked.working⟩
    exact find_of_firm firm found ((stocked.node_of_not_mem last other).trans (there found))

end Stocked

/-- A file that takes the place of what a path ends with has the last name of the path. -/
theorem Replaced.stocked (replaced : Replaced before after (left.join ⟨String.ofList name⟩) bytes)
    (plain : Path.Plain name) : Stocked {String.ofList name} before after := by
  obtain ⟨place, mode, entered, notFolder, rfl⟩ := replaced
  have last := getLast?_of_entry?_join plain entered
  obtain ⟨-, folder, name', -, ⟨_, _, _, mode', _, _, _, _, leads⟩, rfl⟩ := entry?_eq_ok_iff.mp entered
  refine ⟨rfl, fun location => ?_⟩
  by_cases same : location = folder ++ [String.ofList name']
  · subst same
    refine .inr ⟨⟨⟨mode, _, node?_set_self (by simp) _⟩, ⟨mode', ?_⟩, notFolder⟩, _, rfl, last⟩
    rw [List.dropLast_concat]
    exact leads.found
  · exact .inl (node?_set_of_ne same _)

theorem Replaced.stocked_baseline {results fixture : Path}
    (replaced : Replaced before after (results.baseline fixture) bytes)
    (named : fixture.fileName? = some text) : Stocked {fixture.baselineName} before after := by
  rw [Path.baseline_eq named] at replaced
  rw [Path.baselineName_eq named]
  exact replaced.stocked (Path.plain_of_fileName? named).baselineSegment

/-- Without links the path reads back what was put at its end. -/
theorem Replaced.read (replaced : Replaced before after path bytes) (linkFree : before.LinkFree) :
    after.read path = .ok bytes :=
  replaced.read_iff.mpr fun ⟨_, _, _, isLink, _⟩ => linkFree _ _ isLink

end Colorization.FileSystem
