import Colorization.Proofs.Routine.Fails
import Colorization.Proofs.Token.File

/-! What a save that fails leaves behind: nothing but directories above the path. The temporary
file is removed wherever the save stops. -/
namespace Colorization

namespace World

variable {host : Host} {before after : World} {path : Path}

theorem files_of_change_error {request : FileSystem → Except SystemError FileSystem}
    (refused : before.change host request = (.error error, after)) : after.files = before.files := by
  unfold change at refused
  split at refused
  · cases refused
    rfl
  · split at refused <;> cases refused
    rfl

theorem files_of_createTemporary_error
    (refused : before.createTemporary host path = (.error error, after)) :
    after.files = before.files := by
  unfold createTemporary at refused
  split at refused
  · cases refused
    rfl
  · split at refused <;> cases refused
    rfl

/-- Some of the directories may have been made. -/
theorem files_of_makeDirectories_error
    (refused : before.makeDirectories host path = (.error error, after)) :
    after.files = before.files ∨ after.files = (before.files.makeDirectories path).2 := by
  unfold makeDirectories at refused
  split at refused
  · cases refused
    exact .inl rfl
  · exact .inr (congrArg (fun answer => answer.2.files) refused).symm

/-- Some directories may have been made. -/
theorem files_of_makeDirectories_any {answer : Except SystemError Unit}
    (performed : before.makeDirectories host path = (answer, after)) :
    after.files = before.files ∨ after.files = (before.files.makeDirectories path).2 := by
  cases answer with
  | error error => exact files_of_makeDirectories_error performed
  | ok => exact .inr (files_of_makeDirectories performed)

/-- Some of the bytes may have been put into the file. -/
theorem files_of_overwrite_error {bytes : ByteArray}
    (refused : before.overwrite host path bytes = (.error error, after)) :
    after.files = before.files ∨
      ∃ written, before.files.overwrite path (.ofBytes written) = .ok after.files := by
  unfold overwrite at refused
  split at refused
  · exact .inl (files_of_change_error refused)
  next breakdown _ =>
    cases refused
    cases begun : before.files.overwrite path
        (.ofBytes (bytes.extract 0 breakdown.written)) with
    | error => exact .inl rfl
    | ok files => exact .inr ⟨_, begun⟩

end World

namespace FileSystem

/-- Without the temporary file all is as it was. -/
theorem Besides.remove {before files : FileSystem} {temporary : Path} {content : Content}
    (besides : Besides before files temporary content) : files.remove temporary = .ok before := by
  obtain ⟨location, mode, free, rfl, file⟩ := besides
  have gone := erase_set free (location_ne_nil file.entered) (.file mode content)
  rw [file.remove, gone]

end FileSystem

namespace Capture

open Colorization.Action (Returns Fails)

variable {host : Host} {before after : World} {path temporary : Path} {files : FileSystem}
  {content : Content} {failure : Option Failure} {text : String}

theorem besides_of_failed_fill (besides : files.Besides before.files temporary content)
    (failed : Fails host (do
      Action.on temporary (Routine.overwrite temporary text.toUTF8)
      Action.on path (Routine.rename temporary path)) before failure after) :
    failure ≠ none ∧ ∃ content', files.Besides after.files temporary content' := by
  rcases Action.fails_bind.mp failed with failed | ⟨⟨⟩, filled, overwritten, failed⟩
  · obtain ⟨error, rfl, ended⟩ := Action.error_of_fails_on failed (Option.some_ne_none _)
    refine ⟨nofun, ?_⟩
    have refused := (Routine.run_ask_iff (.overwrite ..)).mp ended
    rcases World.files_of_overwrite_error refused with same | ⟨written, partly⟩
    · exact ⟨content, same ▸ besides⟩
    · exact ⟨_, besides.overwrite partly⟩
  · have overwritten := (Routine.run_ask_iff (.overwrite ..)).mp (Action.returns_on.mp overwritten)
    have full := besides.overwrite (World.files_of_overwrite overwritten)
    obtain ⟨error, rfl, ended⟩ := Action.error_of_fails_on failed (Option.some_ne_none _)
    have refused : filled.change host (fun files => files.rename temporary path) = (.error error, after) :=
      (Routine.run_ask_iff (.rename ..)).mp ended
    exact ⟨nofun, _, World.files_of_change_error refused ▸ full⟩

theorem besides_of_failed_replace (besides : files.Besides before.files temporary content)
    (failed : Fails host (replace temporary path text) before failure after) :
    failure ≠ none ∧ ∃ content', files.Besides after.files temporary content' := by
  rcases Action.fails_bind.mp failed with failed | ⟨answer, looked, asked, failed⟩
  · exact absurd failed (Action.not_fails_request _)
  have asked : before.look host (fun files => files.stat path) = (answer, looked) :=
    (Action.returns_request (.stat path)).mp asked
  rw [← World.files_of_look asked] at besides
  split at failed
  next _ mode _ _ =>
    rcases Action.fails_bind.mp failed with failed | ⟨⟨⟩, changed, set, failed⟩
    · obtain ⟨error, rfl, ended⟩ := Action.error_of_fails_on failed (Option.some_ne_none _)
      have refused : looked.change host (fun files => files.setMode temporary mode) = (.error error, after) :=
        (Routine.run_ask_iff (.setMode ..)).mp ended
      exact ⟨nofun, content, World.files_of_change_error refused ▸ besides⟩
    · have set : looked.change host (fun files => files.setMode temporary mode) = (.ok (), changed) :=
        (Routine.run_ask_iff (.setMode ..)).mp (Action.returns_on.mp set)
      exact besides_of_failed_fill (besides.setMode (World.files_of_change set)) failed
  next => exact besides_of_failed_fill besides failed

theorem files_of_failed_replaceOrRemove (besides : files.Besides before.files temporary content)
    (failed : Fails host (replaceOrRemove temporary path text) before failure after) :
    after.files = files := by
  rcases Action.fails_tryCatch.mp failed with ⟨-, failed⟩ | ⟨failure', middle, failed, handled⟩
  · exact absurd rfl (besides_of_failed_replace besides failed).1
  · obtain ⟨-, content', besides⟩ := besides_of_failed_replace besides failed
    rcases Action.fails_bind.mp handled with failed | ⟨⟨⟩, removed, remove, rethrown⟩
    · exact absurd failed (Action.not_fails_request _)
    · obtain ⟨-, rfl⟩ := Action.fails_throw.mp rethrown
      have remove := (Action.returns_request (.remove temporary)).mp remove
      obtain ⟨-, rfl⟩ := Prod.mk.inj remove
      simp [besides.remove, Except.toOption]

/-- A failed save may have made directories, and nothing else. -/
theorem files_of_failed_save {capture : Capture}
    (failed : Fails host (capture.save path format) before failure after) :
    after.files = before.files ∨ after.files = before.files.prepared path := by
  rcases Action.fails_bind.mp failed with failed | ⟨⟨⟩, prepared, made, failed⟩
  · obtain ⟨error, -, ended⟩ := Action.error_of_fails_on failed (Option.some_ne_none _)
    exact World.files_of_makeDirectories_error ((Routine.run_ask_iff (.makeDirectories ..)).mp ended)
  have made := (Routine.run_ask_iff (.makeDirectories ..)).mp (Action.returns_on.mp made)
  right
  rw [FileSystem.prepared, ← World.files_of_makeDirectories made]
  rcases Action.fails_bind.mp failed with failed | ⟨temporary, started, created, failed⟩
  · obtain ⟨error, -, ended⟩ := Action.error_of_fails_on failed (Option.some_ne_none _)
    exact World.files_of_createTemporary_error ((Routine.run_ask_iff (.createTemporary ..)).mp ended)
  have created := (Routine.run_ask_iff (.createTemporary ..)).mp (Action.returns_on.mp created)
  have besides := (FileSystem.drafts_createTemporary (World.files_of_createTemporary created)).besides
  rcases Action.fails_bind.mp failed with failed | ⟨⟨⟩, replaced, renamed, failed⟩
  · exact files_of_failed_replaceOrRemove besides failed
  · exact absurd failed (Action.not_fails_request _)

end Capture

end Colorization
