import Colorization.Proofs.FileSystem.Replacement
import Colorization.Proofs.FileSystem.Firm

/-! Where a path has its entry if directories may have to be made first. -/
namespace Colorization.FileSystem

/-- Where a path has its entry once directories are made that are missing. -/
def Enters (files : FileSystem) (path : Path) (location : Location) : Prop :=
  ∃ ready, Grows files ready ∧ ready.entry? path = .ok (some ⟨location, false⟩)

section Ways

variable {files one other base : FileSystem} {path : Path} {location : Location}

/-- Whichever directories are made, a walk to one of them goes the same way. -/
theorem Leads.stop_eq_of_grows {start stop stop' : Location} {segments : List Segment} (grows : Grows files one)
    (grows' : Grows files other) (leads : Leads one used start segments stop (.directory mode))
    (leads' : Leads other used' start segments stop' (.directory mode')) : stop = stop' := by
  have links : ∀ location target, one.node? location = some (.link target) ↔
      other.node? location = some (.link target) := by
    intro location target
    have noFolder : ∀ mode, Node.link target ≠ .directory mode := nofun
    rw [grows.node_iff noFolder, grows'.node_iff noFolder]
  generalize ends : Node.directory mode = node at leads
  -- by the first walk: the second one takes the same steps, as it meets the same links
  induction leads generalizing used' with
  | here => cases leads' with | here => rfl
  | stay _ blank _ ih =>
    cases leads' with
    | stay _ _ rest => exact ih rest ends
    | up => simp at blank
    | down _ named | follow _ named => exact absurd blank (not_or.mpr ⟨named.notEmpty, named.notHere⟩)
  | up _ _ ih =>
    cases leads' with
    | stay _ blank => simp at blank
    | up _ rest => exact ih rest ends
    | down _ named | follow _ named => exact absurd rfl named.notUp
  | down _ named there notLink _ ih =>
    cases leads' with
    | stay _ blank => exact absurd blank (not_or.mpr ⟨named.notEmpty, named.notHere⟩)
    | up => exact absurd rfl named.notUp
    | down _ _ _ _ rest => exact ih rest ends
    | follow _ _ isLink =>
      exact absurd (Option.some.inj (there.symm.trans ((links ..).mpr isLink))) (notLink _)
  | follow _ named isLink _ ih =>
    have isLink := (links ..).mp isLink
    cases leads' with
    | stay _ blank => exact absurd blank (not_or.mpr ⟨named.notEmpty, named.notHere⟩)
    | up => exact absurd rfl named.notUp
    | down _ _ there notLink => exact absurd (Option.some.inj (there.symm.trans isLink)) (notLink _)
    | follow _ _ isLink' rest =>
      cases isLink.symm.trans isLink'
      exact ih rest ends

/-- A path has one entry, whichever directories are made. -/
theorem Enters.unique (enters : files.Enters path location) (enters' : files.Enters path location') :
    location = location' := by
  obtain ⟨one, grows, entered⟩ := enters
  obtain ⟨other, grows', entered'⟩ := enters'
  obtain ⟨-, folder, name, named, ends, rfl⟩ := entry?_eq_ok_iff.mp entered
  obtain ⟨-, folder', name', named', ends', rfl⟩ := entry?_eq_ok_iff.mp entered'
  have origin : one.start path = other.start path := by simp [start, grows.working, grows'.working]
  obtain ⟨rfl, rfl, -⟩ := ends.unique_of_ways ends' named.notEmpty named'.notEmpty fun leads leads' =>
    leads.stop_eq_of_grows grows grows' (origin ▸ leads')
  rfl

/-- Where directories and links are as they were, so are the entries of paths. -/
theorem entry?_of_firm (firm : Firm files base) (entered : files.entry? path = .ok (some entry)) :
    base.entry? path = .ok (some entry) := by
  obtain ⟨checked, folder, name, named, ends, whole⟩ := entry?_eq_ok_iff.mp entered
  refine entry?_eq_ok_iff.mpr ⟨checked, folder, name, named, ends.imp firm.working fun leads => ?_, whole⟩
  exact leads.of_firm firm (firm.directory _ _ leads.found)

/-- A path that leads somewhere has its entry, if it has one where there is more. -/
theorem entry?_of_find {place : Location × Node} (firm : Firm files base)
    (found : files.find path = .ok place)
    (entered : base.entry? path = .ok (some entry)) : files.entry? path = .ok (some entry) := by
  obtain ⟨checked, folder, name, named, ground, whole⟩ := entry?_eq_ok_iff.mp entered
  have ⟨above, blanks, _, _, text, empty, isSlash, _, _⟩ := ground
  obtain ⟨folder', ends⟩ := endsIn_of_find found text empty
  rw [← isSlash] at ends
  have back := ends.imp firm.working fun leads => leads.of_firm firm (firm.directory _ _ leads.found)
  obtain ⟨rfl, -, -⟩ := back.unique ground named.notEmpty named.notEmpty
  exact entry?_eq_ok_iff.mpr ⟨checked, _, name, named, ends, whole⟩

end Ways

end Colorization.FileSystem
