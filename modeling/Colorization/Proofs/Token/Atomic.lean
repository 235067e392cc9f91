import Colorization.Proofs.Token.Failure
import Colorization.Proofs.Token.Writers
import Colorization.Proofs.Snapshot.Policy

/-! A save by itself, any of whose requests may break down. It stops short of the rename and has made
at most directories, or it replaces the path's entry and has done nothing else to regular files. -/
namespace Colorization

open Colorization.Action (Returns Fails)

namespace FileSystem

variable {before after : FileSystem} {path : Path} {place : Location} {mode : Nat} {bytes : ByteArray}

/-- What a save has done to the files: a new regular file is at the place of the path's entry, and all
the other ones are as they were. -/
structure Rewritten (before after : FileSystem) (path : Path) (place : Location) (mode : Nat)
    (bytes : ByteArray) : Prop where
  entered : FileSystem.entry? (before.prepared path) path = .ok (some ⟨place, false⟩)
  there : after.node? place = some (.file mode (.ofBytes bytes))
  others : ∀ location, location ≠ place → before.FileKept after location
  /-- The path leads to the new file unless its way was through the link that was replaced. -/
  found : after.find path = .ok (place, .file mode (.ofBytes bytes)) ↔
    ¬ (before.prepared path).RunsThroughItself path

theorem ReplacedBy.rewritten (replaced : (before.prepared path).ReplacedBy after path mode bytes) :
    ∃ place, Rewritten before after path place mode bytes := by
  have readable := replaced.replaced.read_iff
  obtain ⟨place, entered, notFolder, rfl⟩ := replaced
  have there : ((before.prepared path).set place (.file mode (.ofBytes bytes))).node? place =
      some (.file mode (.ofBytes bytes)) := node?_set_self (location_ne_nil entered) _
  refine ⟨place, entered, there, fun location elsewhere mode' content => ?_, fun found => ?_, fun direct => ?_⟩
  · rw [node?_set_of_ne elsewhere]
    exact (grows_makeDirectories before path.directory).fileKept location mode' content
  · exact readable.mp (read_eq_ok_iff.mpr ⟨_, _, found, nofun, (Content.bytes_ofBytes bytes).symm⟩)
  · exact find_set_of_direct entered notFolder direct (.ofBytes bytes) mode

/-- A regular file that was at the place is what the path led to. -/
theorem Rewritten.modeAt_of_file (rewritten : Rewritten before after path place mode bytes)
    (former : before.node? place = some (.file mode' content)) : (before.prepared path).modeAt path = mode' := by
  have kept := ((grows_makeDirectories before path.directory).fileKept place mode' content).mpr former
  have found := find_of_entry? rewritten.entered kept nofun
  exact modeAt_of_find found

end FileSystem

namespace Capture

variable {host : Host} {before after : World} {path : Path} {capture : Capture} {format : Format}

/-- A save returns or is refused something. -/
theorem ends_of_save (capture : Capture) (path : Path) (format : Format) (host : Host) (before : World) :
    ∃ ended after, (capture.save path format).run.run host before = (some ended, after) ∧
      (ended = .ok () ∨ ∃ place error, ended = .error (.system place error)) := by
  have obeys := @obeys_save path capture format
  obtain ⟨stage, outcome⟩ := obeys.run_protocol host before
  rcases outcome with ⟨same, -⟩ | ⟨⟨place, error, same⟩, -⟩
  · exact ⟨_, _, Prod.ext same rfl, .inl rfl⟩
  · exact ⟨_, _, Prod.ext same rfl, .inr ⟨place, error, rfl⟩⟩

/-- Whatever breaks down, a save is refused something and has changed no regular file, or it returns
and has replaced the one. The mode of the file that was there is kept unless the request for it breaks
down, which is passed over. -/
theorem save_atomic (capture : Capture) (path : Path) (format : Format) (host : Host) (before : World) :
    ∃ ended after, (capture.save path format).run.run host before = (some ended, after) ∧
      ((∃ location error, ended = .error (.system location error)) ∧
          (after.files = before.files ∨ after.files = before.files.prepared path) ∧
          (∀ location, before.files.FileKept after.files location) ∨
        ended = .ok () ∧ ∃ place mode,
          before.files.Rewritten after.files path place mode (capture.serialize format).toUTF8 ∧
          (mode = if host.breakdown? (before.clock + 2) = none then (before.files.prepared path).modeAt path
            else FileSystem.fileMode) ∧
          (∀ former content, before.files.node? place = some (.file former content) →
            host.breakdown? (before.clock + 2) = none → mode = former) ∧
          (¬ (before.files.prepared path).RunsThroughItself path → ∀ reader world,
            world.files = after.files → reader.breakdown? world.clock = none →
            Returns reader (Capture.load path) world capture world.tick)) := by
  obtain ⟨ended, after, ran, rfl | ⟨place, error, rfl⟩⟩ := ends_of_save capture path format host before
  · refine ⟨_, after, ran, .inr ⟨rfl, ?_⟩⟩
    have replaced := replacedBy_of_save ran
    obtain ⟨place, rewritten⟩ := replaced.rewritten
    refine ⟨place, _, rewritten, rfl, fun former content there whole => ?_, fun direct reader world same whole => ?_⟩
    · rw [if_pos whole, rewritten.modeAt_of_file there]
    · have wrote := replaced.replaced.read_iff.mpr direct
      exact returns_load.mpr ⟨whole, same ▸ FileSystem.holds_of_read wrote, rfl⟩
  · have failed : Fails host (capture.save path format) before (some (.system place error)) after := ran
    have left := files_of_failed_save failed
    refine ⟨_, after, ran, .inl ⟨⟨place, error, rfl⟩, left, fun location => ?_⟩⟩
    rcases left with same | made
    · rw [same]
      exact fun _ _ => Iff.rfl
    · rw [made]
      exact (FileSystem.grows_makeDirectories before.files path.directory).fileKept location

/-- A file with a mode of its own. -/
def guarded : FileSystem where
  nodes := [(["x.json"], .file 0o640 (.ofText "[]"))]
  working := []

/-- A host that does not tell what is at the path of a save. -/
def silent : Host := { Host.quiet [] with
  breakdown? n := if n = 2 then some ⟨.inputOutput, 0⟩ else none }

/-- A save can close the way to what it has saved, and where it is not told the mode of the file it
replaces the new file has the mode of any new file. -/
theorem save_closes_way_or_drops_mode :
    (∃ after, Returns (.quiet []) (save [] ⟨"x_js.json/../x_js.json"⟩ .compact) (.start SnapshotRunner.roundabout)
        () after ∧
      ∀ reader world given left, world.files = after.files →
        ¬ Returns reader (load ⟨"x_js.json/../x_js.json"⟩) world given left) ∧
    ∃ after, Returns silent (save [] ⟨"x.json"⟩ .compact) (.start guarded) () after ∧
      guarded.modeAt ⟨"x.json"⟩ = 0o640 ∧ after.files.modeAt ⟨"x.json"⟩ = 0o644 := by
  constructor
  · have passes : Action.returnsWith (.quiet []) (save [] ⟨"x_js.json/../x_js.json"⟩ .compact)
        (.start SnapshotRunner.roundabout)
        (fun _ after => !(after.files.read ⟨"x_js.json/../x_js.json"⟩).isOk) = true := by decide +kernel
    obtain ⟨⟨⟩, after, returned, lost⟩ := Action.returns_of_returnsWith passes
    refine ⟨after, returned, fun reader world given left same loaded => ?_⟩
    obtain ⟨-, ⟨text, wasRead, -⟩, -⟩ := returns_load.mp loaded
    rw [same] at wasRead
    simp [wasRead, Except.isOk, Except.toBool] at lost
  · have passes : Action.returnsWith silent (save [] ⟨"x.json"⟩ .compact) (.start guarded)
        (fun _ after => after.files.modeAt ⟨"x.json"⟩ = 0o644) = true := by decide +kernel
    obtain ⟨⟨⟩, after, returned, there⟩ := Action.returns_of_returnsWith passes
    exact ⟨after, returned, by decide +kernel, of_decide_eq_true there⟩

end Capture

end Colorization
