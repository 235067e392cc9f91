import Colorization.Proofs.FileSystem.Tree
import Colorization.Proofs.FileSystem.Change
import Colorization.Proofs.Routine.Keeps
import Colorization.Proofs.Token.Failure

/-! What is there is there once and under names, whatever is asked for. -/
namespace Colorization

namespace FileSystem

namespace Tidy

variable {files after : FileSystem} {path : Path} {location : Location} {node : Node}

theorem plain_of_node? (tidy : files.Tidy) (there : files.node? location = some node) :
    ∀ name ∈ location, Path.Plain name.toList := by
  by_cases root : location = []
  · subst root
    exact List.forall_mem_nil _
  · obtain ⟨entry, inside, rfl⟩ := mem_of_node? there root
    exact tidy.plain entry inside

theorem plain_of_entry? (tidy : files.Tidy) (entered : files.entry? path = .ok (some entry)) :
    ∀ name ∈ entry.location, Path.Plain name.toList := by
  obtain ⟨location, slash⟩ := entry
  obtain ⟨-, folder, name, named, ⟨before, blanks, _, _, text, -, -, -, leads⟩, rfl⟩ :=
    entry?_eq_ok_iff.mp entered
  have member : name ∈ Path.segments path.text.toList := by simp [text]
  have noSlash := Path.slash_not_mem_segments member
  refine List.forall_mem_append.mpr ⟨tidy.plain_of_node? leads.found, List.forall_mem_singleton.mpr ?_⟩
  rw [String.toList_ofList]
  exact ⟨named.notEmpty, named.notHere, named.notUp, noSlash⟩

theorem erase (tidy : files.Tidy) (location : Location) : (files.erase location).Tidy := by
  have part : (files.erase location).nodes.Sublist files.nodes := List.filter_sublist
  exact ⟨(part.map _).nodup tidy.once, fun entry member => tidy.plain entry (part.subset member)⟩

theorem set (tidy : files.Tidy) (plain : ∀ name ∈ location, Path.Plain name.toList) (node : Node) :
    (files.set location node).Tidy := by
  have others := tidy.erase location
  constructor
  · refine List.nodup_cons.mpr ⟨fun member => ?_, others.once⟩
    obtain ⟨entry, inside, same⟩ := List.mem_map.mp member
    simpa [same] using (List.mem_filter.mp inside).2
  · exact List.forall_mem_cons.mpr ⟨plain, others.plain⟩

theorem makeDirectory (tidy : files.Tidy) (made : files.makeDirectory path = .ok after) : after.Tidy := by
  obtain ⟨location, slash, entered, -, rfl⟩ := makeDirectory_eq_ok made
  exact tidy.set (tidy.plain_of_entry? entered) _

theorem makeDirectories (tidy : files.Tidy) (path : Path) : (files.makeDirectories path).2.Tidy :=
  makeDirectories_keeps (fun made tidy => tidy.makeDirectory made) tidy path

theorem createTemporary {temporary : Path} (tidy : files.Tidy)
    (created : files.createTemporary path = .ok (temporary, after)) : after.Tidy := by
  obtain ⟨⟨folder, node⟩, found, rest⟩ := bind_eq_ok_iff.mp created
  cases node with
  | file | link | device => cases rest
  | directory mode =>
    obtain ⟨entry, entered, rest⟩ := bind_eq_ok_iff.mp rest
    cases entry with
    | none => cases rest
    | some entry =>
      cases rest
      exact tidy.set (tidy.plain_of_entry? entered) _

theorem of_found {place : Location × Node} (tidy : files.Tidy) (found : files.find path = .ok place) (node : Node) :
    (files.set place.1 node).Tidy := by
  obtain ⟨-, _, -, leads⟩ := find_eq_ok_iff.mp found
  exact tidy.set (tidy.plain_of_node? leads.found) node

theorem setMode (tidy : files.Tidy) (changed : files.setMode path mode = .ok after) : after.Tidy := by
  obtain ⟨⟨location, node⟩, found, rest⟩ := bind_eq_ok_iff.mp changed
  have set := fun node => tidy.of_found found node
  cases node <;> cases rest
  · exact set _
  · exact set _
  · exact tidy
  · exact tidy

theorem overwrite (tidy : files.Tidy) (changed : files.overwrite path content = .ok after) : after.Tidy := by
  obtain ⟨⟨location, node⟩, found, rest⟩ := bind_eq_ok_iff.mp changed
  have set := fun node => tidy.of_found found node
  cases node <;> cases rest
  · exact set _
  · exact tidy
  · exact tidy

theorem remove (tidy : files.Tidy) (changed : files.remove path = .ok after) : after.Tidy := by
  obtain ⟨entry, entered, rest⟩ := bind_eq_ok_iff.mp changed
  cases entry with
  | none => cases rest
  | some entry =>
    dsimp only at rest
    split at rest <;> cases rest
    exact tidy.erase _

theorem rename {target : Path} (tidy : files.Tidy) (changed : files.rename path target = .ok after) :
    after.Tidy := by
  obtain ⟨old, -, rest⟩ := bind_eq_ok_iff.mp changed
  obtain ⟨new, entered, rest⟩ := bind_eq_ok_iff.mp rest
  have entered := mapError_eq_ok_iff.mp entered
  cases old with
  | none => cases rest
  | some old =>
    cases new with
    | none => cases rest
    | some new =>
      have plain := tidy.plain_of_entry? entered
      dsimp only at rest
      split at rest
      · cases rest
      split at rest
      · cases rest
      split at rest
      · cases rest
      · cases rest
        exact (tidy.erase _).set plain _

end Tidy

end FileSystem

theorem World.tidy_change {world : World} {request : FileSystem → Except SystemError FileSystem}
    (tidy : world.files.Tidy) (step : ∀ {after}, request world.files = .ok after → after.Tidy) (host : Host) :
    (world.change host request).2.files.Tidy := by
  rcases changed : world.change host request with ⟨error | done, after⟩
  · exact World.files_of_change_error changed ▸ tidy
  · exact step (World.files_of_change changed)

/-- Whichever request breaks down, all is left in order. -/
theorem Request.tidy_perform (request : Request) (host : Host) {world : World} (tidy : world.files.Tidy) :
    (request.perform host world).2.files.Tidy := by
  by_cases still : request.Still
  · rw [still.files]
    exact tidy
  cases request with
  | stat | openFile | read | list | tokenize | execute | tell | print => exact absurd trivial still
  | setMode path mode => exact World.tidy_change tidy tidy.setMode host
  | rename source target => exact World.tidy_change tidy tidy.rename host
  | makeDirectories path =>
    rcases performed : world.makeDirectories host path with ⟨answer, after⟩
    simp only [perform, performed]
    rcases World.files_of_makeDirectories_any performed with same | made
    · exact same ▸ tidy
    · exact made ▸ tidy.makeDirectories path
  | createTemporary directory =>
    rcases performed : world.createTemporary host directory with ⟨error | temporary, after⟩
    · simp only [perform, performed]
      exact World.files_of_createTemporary_error performed ▸ tidy
    · simp only [perform, performed]
      exact tidy.createTemporary (World.files_of_createTemporary performed)
  | overwrite path bytes =>
    rcases performed : world.overwrite host path bytes with ⟨error | done, after⟩
    · simp only [perform, performed]
      rcases World.files_of_overwrite_error performed with same | ⟨written, filled⟩
      · exact same ▸ tidy
      · exact tidy.overwrite filled
    · simp only [perform, performed]
      exact tidy.overwrite (World.files_of_overwrite performed)
  | remove path =>
    simp only [perform]
    cases removed : world.files.remove path with
    | error => exact tidy
    | ok files => exact tidy.remove removed

/-- What every request keeps is kept by every worker. -/
theorem Routine.keeps_of_requests {host : Host} {holds : FileSystem → Prop}
    (step : ∀ (request : Request) (world : World), holds world.files →
      holds (request.perform host world).2.files) (routine : Routine α) (key : Nat) :
    routine.Keeps host (fun _ files => holds files) key (fun _ hand => hand = ()) () := by
  induction routine with
  | done | panic => rfl
  | step request next ih => exact fun hands world kept _ => ⟨(), step request world kept, ih _⟩

theorem Host.Gathers.tidy {host : Host} {work : Path → Action α} {before after : World}
    (gathers : host.Gathers work parts before results after) (tidy : before.files.Tidy) :
    after.files.Tidy := by
  have keeps : ∀ group ∈ parts, ∀ path ∈ group, ∀ key < group.length,
      (work path).run.Keeps host (fun _ files => files.Tidy) key (fun _ hand => hand = ()) () :=
    fun _ _ path _ key _ => Routine.keeps_of_requests (fun request _ => request.tidy_perform host) (work path).run key
  exact gathers.keeps_idle keeps tidy

end Colorization
