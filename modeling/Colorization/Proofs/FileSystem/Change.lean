import Colorization.Proofs.FileSystem.Entries

/-! Walks after a change. A walk survives when things are added where nothing was, and a walk
to a directory survives any change at a location that no such walk goes through. -/
namespace Colorization.FileSystem

/-- All that was there is there as it was. -/
structure Extends (before after : FileSystem) : Prop where
  node : ∀ location node, before.node? location = some node → after.node? location = some node
  working : after.working = before.working

theorem Extends.refl (files : FileSystem) : Extends files files := ⟨fun _ _ there => there, rfl⟩

theorem extends_set {files : FileSystem} (free : files.node? location = none) (node : Node) :
    Extends files (files.set location node) := by
  refine ⟨fun other found there => ?_, rfl⟩
  have differs : other ≠ location := by
    rintro rfl
    rw [free] at there
    cases there
  rw [node?_set_of_ne differs, there]

/-- No walk to a directory goes through the location: there is nothing, or neither a directory
nor a link to one. -/
def Blind (files : FileSystem) (location : Location) : Prop :=
  match files.node? location with
  | some (.directory _) => False
  | some (.link target) => ∀ used stop mode, ¬ Leads files used (base location.dropLast target)
      (Path.segments target.text.toList) stop (.directory mode)
  | _ => True

theorem blind_of_none {files : FileSystem} (free : files.node? location = none) :
    files.Blind location := by
  simp [Blind, free]

theorem blind_of_file {files : FileSystem} (there : files.node? location = some (.file mode content)) :
    files.Blind location := by
  simp [Blind, there]

theorem blind_of_not_link {files : FileSystem}
    (notFolder : ∀ mode, files.node? location ≠ some (.directory mode))
    (notLink : ∀ target, files.node? location ≠ some (.link target)) : files.Blind location := by
  unfold Blind
  split
  next mode there => exact notFolder mode there
  next target there => exact absurd there (notLink target)
  next => trivial

theorem Blind.ne {files : FileSystem} (blind : files.Blind location)
    (folder : files.node? other = some (.directory mode)) : other ≠ location := by
  rintro rfl
  simp [Blind, folder] at blind

/-- Everything but one location is as it was. -/
structure SameBut (location : Location) (before after : FileSystem) : Prop where
  node : ∀ other, other ≠ location → after.node? other = before.node? other
  working : after.working = before.working

theorem SameBut.symm {before after : FileSystem} (same : SameBut location before after) :
    SameBut location after before :=
  ⟨fun other differs => (same.node other differs).symm, same.working.symm⟩

theorem SameBut.trans {first second third : FileSystem} (one : SameBut location first second)
    (two : SameBut location second third) : SameBut location first third :=
  ⟨fun other differs => (two.node other differs).trans (one.node other differs),
    two.working.trans one.working⟩

theorem sameBut_set (files : FileSystem) (location : Location) (node : Node) :
    SameBut location files (files.set location node) :=
  ⟨fun _ differs => node?_set_of_ne differs node, rfl⟩

theorem sameBut_erase (files : FileSystem) (location : Location) :
    SameBut location files (files.erase location) :=
  ⟨fun _ differs => node?_erase_of_ne differs, rfl⟩

namespace Leads

variable {before after : FileSystem} {start stop : Location} {segments : List Segment}

theorem of_extends (extends' : Extends before after)
    (leads : Leads before used start segments stop node) :
    Leads after used start segments stop node := by
  induction leads with
  | here there => exact .here (extends'.node _ _ there)
  | stay folder blank _ ih => exact .stay (extends'.node _ _ folder) blank ih
  | up folder _ ih => exact .up (extends'.node _ _ folder) ih
  | down folder named there notLink _ ih =>
    exact .down (extends'.node _ _ folder) named (extends'.node _ _ there) notLink ih
  | follow folder named there _ ih =>
    exact .follow (extends'.node _ _ folder) named (extends'.node _ _ there) ih

/-- The case of a link at the location: its target would be a directory, as the walk goes on
from there to one. -/
theorem of_blind (blind : before.Blind location) (same : SameBut location before after)
    (leads : Leads before used start segments stop (.directory mode)) :
    Leads after used start segments stop (.directory mode) := by
  have kept : ∀ {other mode'}, before.node? other = some (.directory mode') →
      after.node? other = some (.directory mode') := fun folder => by
    rw [same.node _ (blind.ne folder), folder]
  generalize ends : Node.directory mode = node at leads
  induction leads with
  | here there =>
    subst ends
    exact .here (kept there)
  | stay folder blank _ ih => exact .stay (kept folder) blank (ih ends)
  | up folder _ ih => exact .up (kept folder) (ih ends)
  | down folder named there notLink next ih =>
    subst ends
    obtain ⟨mode', inner⟩ := next.start_directory
    have isFolder := there.symm.trans inner
    cases isFolder
    exact .down (kept folder) named (kept there) notLink (ih rfl)
  | @follow folder _ target _ rest _ _ segment inFolder named there next ih =>
    subst ends
    have differs : folder ++ [String.ofList segment] ≠ location := by
      rintro rfl
      simp only [Blind, there, List.dropLast_concat] at blind
      obtain ⟨used₁, used₂, middle, between, -, toTarget, onward⟩ := next.split
      obtain ⟨mode', isFolder⟩ := onward.start_directory
      have same := toTarget.found.symm.trans isFolder
      cases same
      exact blind _ _ _ toTarget
    exact .follow (kept inFolder) named (by rw [same.node _ differs, there]) (ih rfl)

end Leads

section Requests

variable {before after : FileSystem} {path : Path}

theorem start_of_working (working : after.working = before.working) (path : Path) :
    after.start path = before.start path := by
  simp [start, working]

theorem find_of_extends (extends' : Extends before after)
    (found : before.find path = .ok (location, node)) : after.find path = .ok (location, node) := by
  obtain ⟨checked, used, bound, leads⟩ := find_eq_ok_iff.mp found
  rw [← start_of_working extends'.working] at leads
  exact find_eq_ok_iff.mpr ⟨checked, used, bound, leads.of_extends extends'⟩

/-- A path ends where it did, if the ways to directories are still there. -/
theorem EndsIn.imp (ends : EndsIn before path folder name slash)
    (working : after.working = before.working)
    (ways : ∀ {used start segments stop mode}, Leads before used start segments stop (.directory mode) →
      Leads after used start segments stop (.directory mode)) : EndsIn after path folder name slash := by
  obtain ⟨above, blanks, used, mode, text, empty, isSlash, bound, leads⟩ := ends
  rw [← start_of_working working] at leads
  exact ⟨above, blanks, used, mode, text, empty, isSlash, bound, ways leads⟩

theorem EndsIn.of_extends (extends' : Extends before after) (ends : EndsIn before path folder name slash) :
    EndsIn after path folder name slash :=
  ends.imp extends'.working fun leads => leads.of_extends extends'

theorem EndsIn.of_blind (blind : before.Blind location) (same : SameBut location before after)
    (ends : EndsIn before path folder name slash) : EndsIn after path folder name slash :=
  ends.imp same.working fun leads => leads.of_blind blind same

/-- An entry stays the same entry. -/
theorem entry?_of_blind (blind : before.Blind location) (same : SameBut location before after)
    (entered : before.entry? path = .ok (some entry)) : after.entry? path = .ok (some entry) := by
  obtain ⟨checked, folder, name, named, ends, whole⟩ := entry?_eq_ok_iff.mp entered
  exact entry?_eq_ok_iff.mpr ⟨checked, folder, name, named, ends.of_blind blind same, whole⟩

/-- What stands at an entry, if it is no link, is what the path leads to. -/
theorem find_of_entry? (entered : after.entry? path = .ok (some ⟨location, false⟩))
    (there : after.node? location = some node) (notLink : ∀ target, node ≠ .link target) :
    after.find path = .ok (location, node) := by
  obtain ⟨checked, folder, name, named, ends, rfl⟩ := entry?_eq_ok_iff.mp entered
  obtain ⟨above, blanks, used, mode, text, empty, isSlash, bound, leads⟩ := ends
  have none : blanks = [] := by simpa using isSlash
  have last : Leads after 0 folder [name] (folder ++ [String.ofList name]) node :=
    .down leads.found named there notLink (.here there)
  have whole := leads.append last
  rw [none] at text
  exact find_eq_ok_iff.mpr ⟨checked, used, bound, text ▸ whole⟩

theorem location_ne_nil (entered : after.entry? path = .ok (some ⟨location, slash⟩)) :
    location ≠ [] := by
  obtain ⟨-, folder, name, -, -, rfl⟩ := entry?_eq_ok_iff.mp entered
  simp

end Requests

end Colorization.FileSystem
