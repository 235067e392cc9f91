import Colorization.Proofs.FileSystem.Entrance
import Colorization.Proofs.FileSystem.Stocked

/-! Where paths lead in a file system without links: the text alone tells. -/
namespace Colorization

/-- Where a component leads from a location. -/
def Component.follow (location : Location) : Component → Location
  | .root | .here => location
  | .parent => location.dropLast
  | .name text => location ++ [text]

/-- Where a path leads if there are no links. -/
def Path.location (working : Location) (path : Path) : Location :=
  path.route.foldl Component.follow (if path.isAbsolute then [] else working)

theorem Path.location_join (working : Location) (left : Path) {name : List Char} (plain : Plain name) :
    (left.join ⟨String.ofList name⟩).location working = left.location working ++ [String.ofList name] := by
  rw [location, location, route_join left plain, isAbsolute_join left plain.noSlash, List.foldl_append]
  rfl

namespace FileSystem

open Colorization.Path (component?)

variable {files : FileSystem} {path : Path} {start stop location : Location} {segments : List Segment}

theorem LinkFree.stop_of_leads (linkFree : files.LinkFree)
    (leads : Leads files used start segments stop node) :
    stop = (segments.filterMap component?).foldl Component.follow start := by
  induction leads with
  | here => rfl
  | stay _ blank _ ih =>
    rw [List.filterMap_cons_none (component?_eq_none_iff.mpr blank)]
    exact ih
  | up _ _ ih =>
    rw [List.filterMap_cons_some (component?_eq_parent_iff.mpr rfl)]
    exact ih
  | down _ named _ _ _ ih =>
    rw [List.filterMap_cons_some named.component?]
    exact ih
  | follow _ _ isLink => exact absurd isLink (linkFree _ _)

theorem LinkFree.location_of_find (linkFree : files.LinkFree)
    (found : files.find path = .ok (location, node)) : location = path.location files.working := by
  obtain ⟨-, used, -, leads⟩ := find_eq_ok_iff.mp found
  exact linkFree.stop_of_leads leads

theorem LinkFree.location_of_entry? (linkFree : files.LinkFree)
    (entered : files.entry? path = .ok (some ⟨location, slash⟩)) :
    location = path.location files.working := by
  obtain ⟨-, folder, name, named, ⟨before, blanks, used, mode, text, empty, -, -, leads⟩, rfl⟩ :=
    entry?_eq_ok_iff.mp entered
  have silent := silent_of_empty empty
  rw [linkFree.stop_of_leads leads, Path.location, Path.route, text, List.filterMap_append,
    List.filterMap_cons_some named.component?, silent, List.foldl_append]
  rfl

/-- It makes no difference which directories have to be made first. -/
theorem LinkFree.location_of_enters (linkFree : files.LinkFree) (enters : files.Enters path location) :
    location = path.location files.working := by
  obtain ⟨ready, grows, entered⟩ := enters
  rw [← grows.working]
  exact LinkFree.location_of_entry? (grows.linkFree linkFree) entered

end FileSystem

end Colorization
