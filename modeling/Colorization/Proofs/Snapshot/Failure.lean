import Colorization.CommandLine.Execution
import Colorization.Proofs.FileSystem.Made
import Colorization.Proofs.Snapshot.Policy
import Colorization.Proofs.Token.Failure

/-! What an operation that fails leaves: at most directories above its target are new, wherever
it stopped. -/
namespace Colorization

open Colorization.Action (Returns Fails)

namespace FileSystem

/-- At most the directories above the target were made. -/
def Spared (before after : FileSystem) (target : Path) : Prop :=
  after = before ∨ after = before.prepared target

/-- No file is touched. -/
structure LeftAlone (before after : FileSystem) (target : Path) : Prop where
  spared : Spared before after target
  /-- Files, links and devices are where they were, as they were, and there are no others. -/
  node_iff : ∀ location node, (∀ mode, node ≠ .directory mode) →
    (after.node? location = some node ↔ before.node? location = some node)
  /-- What a path led to it leads to. -/
  found : ∀ path place, before.find path = .ok place → after.find path = .ok place
  read : ∀ path bytes, before.read path = .ok bytes → after.read path = .ok bytes
  /-- The target is not there if it was not, unless its path climbs out of a directory. -/
  absent : before.Rooted → .parent ∉ target.components →
    (∀ place, before.find target ≠ .ok place) → ∀ place, after.find target ≠ .ok place

theorem Spared.leftAlone {before after : FileSystem} {target : Path}
    (spared : Spared before after target) : LeftAlone before after target := by
  have grows : Grows before after := by
    rcases spared with rfl | rfl
    · exact .refl _
    · exact grows_makeDirectories ..
  refine ⟨spared, fun location node notFolder => grows.node_iff notFolder,
    fun path place => find_of_extends grows.extends, fun path bytes wasRead => ?_,
    fun rooted level absent place found => ?_⟩
  · obtain ⟨location, node, found, notFolder, same⟩ := read_eq_ok_iff.mp wasRead
    exact read_eq_ok_iff.mpr ⟨location, node, find_of_extends grows.extends found, notFolder, same⟩
  · rcases spared with rfl | rfl
    · exact absent place found
    · obtain ⟨place', found'⟩ := (find_prepared_iff rooted level).mp ⟨place, found⟩
      exact absent place' found'

end FileSystem

variable {host : Host} {before after : World} {failure : Option Failure}

namespace SnapshotRunner

variable {runner : SnapshotRunner} {fixture : Path} {current : Capture}

theorem spared_of_failed_write {baseline : Path}
    (failed : Fails host (runner.write current baseline event) before failure after) :
    before.files.Spared after.files baseline := by
  rcases Action.fails_bind.mp failed with failed | ⟨⟨⟩, saved, -, told⟩
  · exact Capture.files_of_failed_save failed
  · exact absurd told (Action.not_fails_request _)

theorem spared_of_failed_settle
    (failed : Fails host (runner.settle fixture former current) before failure after) :
    before.files.Spared after.files (runner.baselineOf fixture) := by
  unfold settle at failed
  cases classified : former.classify current
  all_goals
    simp only [classified] at failed
    rcases Action.fails_bind.mp failed with failed | ⟨⟨⟩, told, announced, failed⟩
    · exact absurd failed (Action.not_fails_request _)
    rw [← Action.files_of_tell announced]
  case identical => exact absurd failed Action.not_fails_pure
  all_goals
    rcases Action.fails_bind.mp failed with failed | ⟨⟨⟩, written, -, failed⟩
    · exact spared_of_failed_write failed
    · exact absurd failed Action.not_fails_pure

theorem spared_of_failed_check (failed : Fails host (runner.check fixture current) before failure after) :
    before.files.Spared after.files (runner.baselineOf fixture) := by
  rcases Action.fails_bind.mp failed with failed | ⟨there, looked, asked, failed⟩
  · exact .inl (Action.files_of_fails (still_isThere _) failed)
  rw [← (isThere_of_returns asked).1]
  cases there with
  | true =>
    rcases Action.fails_bind.mp failed with failed | ⟨former, loaded, load, failed⟩
    · exact .inl (Action.files_of_fails (Capture.still_load _) failed)
    · obtain ⟨-, -, rfl⟩ := Capture.returns_load.mp load
      have spared := spared_of_failed_settle failed
      exact spared
  | false =>
    rcases Action.fails_bind.mp failed with failed | ⟨⟨⟩, written, -, failed⟩
    · exact spared_of_failed_write failed
    · exact absurd failed Action.not_fails_pure

theorem spared_of_failed_run (failed : Fails host (runner.run mode fixture) before failure after) :
    before.files.Spared after.files (runner.baselineOf fixture) := by
  rcases Action.fails_bind.mp failed with failed | ⟨current, captured, capture, failed⟩
  · exact .inl (Action.files_of_fails (runner.colorizer.still_capture _) failed)
  rw [← (Colorizer.captures_of_capture capture).2]
  cases mode with
  | check => exact spared_of_failed_check failed
  | «export» =>
    rcases Action.fails_bind.mp failed with failed | ⟨⟨⟩, written, -, failed⟩
    · exact spared_of_failed_write failed
    · exact absurd failed Action.not_fails_pure

end SnapshotRunner

namespace Colorizer

variable {colorizer : Colorizer}

theorem spared_of_failed_captureToFile
    (failed : Fails host (colorizer.captureToFile path output) before failure after) :
    before.files.Spared after.files output := by
  rcases Action.fails_bind.mp failed with failed | ⟨current, captured, capture, failed⟩
  · exact .inl (Action.files_of_fails (colorizer.still_capture _) failed)
  rw [← (captures_of_capture capture).2]
  rcases Action.fails_bind.mp failed with failed | ⟨⟨⟩, written, -, failed⟩
  · exact Capture.files_of_failed_save failed
  · exact absurd failed Action.not_fails_pure

end Colorizer

namespace Errand

/-- Where an errand begins with an action, that fails or the errand goes on behind it. -/
theorem ends_during_bind {stage : Option Stage} {action : Action α} {next : α → Errand β}
    (ended : (during stage action.undertake >>= next).run.run host before = (result, after)) :
    (∃ failure, Fails host action before failure after) ∨
      ∃ value middle, Returns host action before value middle ∧
        (next value).run.run host middle = (result, after) := by
  change Program.run host (.act action.run fun answer => _) before = _ at ended
  rw [Program.run] at ended
  unfold Fails Returns
  generalize action.run.run host before = done at ended ⊢
  rcases done with ⟨_ | failure | value, middle⟩
  · cases ended
    exact .inl ⟨none, rfl⟩
  · cases ended
    exact .inl ⟨some failure, rfl⟩
  · exact .inr ⟨value, middle, rfl, ended⟩

theorem ends_print_bind {text : String} {next : Unit → Errand β}
    (ended : (perform (Routine.print text) >>= next).run.run host before = (result, after)) :
    ∃ printed : World, printed.files = before.files ∧
      (next ()).run.run host printed = (result, after) :=
  ⟨{ before with printed := before.printed ++ [(.output, text)] }, rfl, ended⟩

end Errand

namespace Colorizer

theorem spared_of_failed_compare {colorizer : Colorizer}
    (ended : (colorizer.compareWithBaseline baseline source update json).run.run host before =
      (result, after)) (failed : ∀ value, result ≠ some (.ok value)) :
    before.files.Spared after.files baseline := by
  unfold compareWithBaseline at ended
  rcases Errand.ends_during_bind ended with ⟨failure, refused⟩ | ⟨former, loaded, load, ended⟩
  · exact .inl (Action.files_of_fails (Capture.still_load _) refused)
  obtain ⟨-, -, rfl⟩ := Capture.returns_load.mp load
  rcases Errand.ends_during_bind ended with ⟨failure, refused⟩ | ⟨current, captured, capture, ended⟩
  · have same := Action.files_of_fails (colorizer.still_capture _) refused
    exact .inl same
  have unchanged := (captures_of_capture capture).2
  obtain ⟨printed, same, ended⟩ := Errand.ends_print_bind ended
  have same : printed.files = before.files := same.trans unchanged
  split at ended
  · rcases Errand.ends_during_bind ended with ⟨failure, refused⟩ | ⟨⟨⟩, saved, save, ended⟩
    · rw [← same]
      exact Capture.files_of_failed_save refused
    · obtain ⟨told, -, ended⟩ := Errand.ends_print_bind ended
      exact absurd (congrArg Prod.fst ended).symm (failed _)
  · exact absurd (congrArg Prod.fst ended).symm (failed _)

end Colorizer

theorem Action.fails_of_ends {action : Action α} (ended : action.run.run host before = (result, after))
    (failed : ∀ value, result ≠ some (.ok value)) : ∃ failure, Fails host action before failure after := by
  rcases result with _ | failure | value
  · exact ⟨none, ended⟩
  · exact ⟨some failure, ended⟩
  · exact absurd rfl (failed value)

/-- An operation that does not succeed leaves every file alone, wherever it stopped. -/
theorem failed_leaves_files (host : Host) (before : World) :
    (∀ (runner : SnapshotRunner) mode fixture result after,
      (runner.run mode fixture).run.run host before = (result, after) →
      (∀ outcome, result ≠ some (.ok outcome)) →
      before.files.LeftAlone after.files (runner.baselineOf fixture)) ∧
    (∀ (colorizer : Colorizer) path output result after,
      (colorizer.captureToFile path output).run.run host before = (result, after) →
      (∀ capture, result ≠ some (.ok capture)) →
      before.files.LeftAlone after.files output) ∧
    (∀ (colorizer : Colorizer) baseline source update json result after,
      (colorizer.compareWithBaseline baseline source update json).run.run host before =
        (result, after) →
      (∀ matching, result ≠ some (.ok matching)) →
      before.files.LeftAlone after.files baseline) := by
  refine ⟨fun runner mode fixture result after ended failed => ?_,
    fun colorizer path output result after ended failed => ?_,
    fun colorizer baseline source update json result after ended failed => ?_⟩
  · obtain ⟨failure, fails⟩ := Action.fails_of_ends ended failed
    exact (SnapshotRunner.spared_of_failed_run fails).leftAlone
  · obtain ⟨failure, fails⟩ := Action.fails_of_ends ended failed
    exact (Colorizer.spared_of_failed_captureToFile fails).leftAlone
  · exact (Colorizer.spared_of_failed_compare ended failed).leftAlone

namespace SnapshotRunner

/-- A source, and a directory with the name of its baseline. -/
def blocked : FileSystem where
  nodes := [(["b"], .directory FileSystem.directoryMode),
    (["b", "x_js.json"], .directory FileSystem.directoryMode),
    (["x.js"], .file 0o644 (.ofBytes .empty))]
  working := []

theorem failed_leaves_files_blocked : ∃ failure after,
    Fails (.quiet []) ((plain ⟨"b"⟩).run .export ⟨"x.js"⟩) (.start blocked) (some failure) after ∧
    blocked.LeftAlone after.files ((plain ⟨"b"⟩).baselineOf ⟨"x.js"⟩) := by
  have passes : Action.failsWith (.quiet []) ((plain ⟨"b"⟩).run .export ⟨"x.js"⟩) (.start blocked)
      (fun _ => true) = true := by decide +kernel
  obtain ⟨failure, after, fails, -⟩ := Action.fails_of_failsWith passes
  exact ⟨failure, after, fails, (failed_leaves_files _ _).1 _ _ _ _ _ fails nofun⟩

/-- The failed check has made the directory that the path climbs out of, and the path now leads
to what was there before. -/
theorem failed_check_opens_way : ∃ failure after,
    Fails (.quiet []) ((plain ⟨"a/../b"⟩).run .check ⟨"x.js"⟩) (.start blocked) (some failure) after ∧
    (∀ place, blocked.find ((plain ⟨"a/../b"⟩).baselineOf ⟨"x.js"⟩) ≠ .ok place) ∧
    ∃ place, after.files.find ((plain ⟨"a/../b"⟩).baselineOf ⟨"x.js"⟩) = .ok place := by
  have passes : Action.failsWith (.quiet []) ((plain ⟨"a/../b"⟩).run .check ⟨"x.js"⟩) (.start blocked)
      (fun after => (after.files.find ((plain ⟨"a/../b"⟩).baselineOf ⟨"x.js"⟩)).isOk) = true := by
    decide +kernel
  obtain ⟨failure, after, fails, isThere⟩ := Action.fails_of_failsWith passes
  have absent : (blocked.find ((plain ⟨"a/../b"⟩).baselineOf ⟨"x.js"⟩)).isOk = false := by
    decide +kernel
  refine ⟨failure, after, fails, fun place found => ?_, ?_⟩
  · rw [found] at absent
    cases absent
  · cases found : after.files.find ((plain ⟨"a/../b"⟩).baselineOf ⟨"x.js"⟩) with
    | error => rw [found] at isThere; cases isThere
    | ok place => exact ⟨place, rfl⟩

end SnapshotRunner

end Colorization
