import Colorization.Proofs.FileSystem.Charter
import Colorization.Proofs.Routine.Keeps
import Colorization.Proofs.Token.Failure

/-! A save among others, one request after the other. What is kept by each of its requests is kept by all
of it, and in the end there is no temporary file. -/
namespace Colorization

open Capture (replace replaceOrRemove)
open FileSystem (Draft)

variable {κ σ : Type} [DecidableEq κ]

/-- What each request of a save at the path has to keep. The saver has a temporary file, with the bytes that
are known to be in it, until that is in the place of the path's entry. -/
structure Saving (Inv : (κ → σ) → FileSystem → Prop) (key : κ) (path : Path) (away : σ)
    (drafted : Draft → Option ByteArray → σ) (placed : ByteArray → σ) : Prop where
  makeDirectories : ∀ {hands files}, Inv hands files → ∀ made, Inv hands (files.makeDirectories made).2
  createTemporary : ∀ {hands files temporary after}, Inv hands files → hands key = away →
    files.createTemporary path.directory = .ok (temporary, after) →
    ∃ draft : Draft, draft.file = temporary ∧ Inv (Function.update hands key (drafted draft none)) after
  setMode : ∀ {hands files draft mode after}, Inv hands files → hands key = drafted draft none →
    files.setMode draft.file mode = .ok after → Inv (Function.update hands key (drafted draft none)) after
  /-- It need not be known how much has been written. -/
  overwrite : ∀ {hands files draft bytes after}, Inv hands files → hands key = drafted draft none →
    files.overwrite draft.file (.ofBytes bytes) = .ok after → ∀ {written}, written = none ∨ written = some bytes →
    Inv (Function.update hands key (drafted draft written)) after
  rename : ∀ {hands files draft bytes after}, Inv hands files → hands key = drafted draft (some bytes) →
    files.rename draft.file path = .ok after → Inv (Function.update hands key (placed bytes)) after
  remove : ∀ {hands files draft written}, Inv hands files → hands key = drafted draft written →
    Inv (Function.update hands key away) ((files.remove draft.file).toOption.getD files)

/-- An end of a save: nothing is left of it, or the bytes are in their place. -/
def SavedOr (bytes : ByteArray) (placed : ByteArray → σ) (left : σ → Prop) (ended : Option (Except Failure Unit))
    (hand : σ) : Prop :=
  (∃ failure, ended = some (.error failure)) ∧ left hand ∨ ended = some (.ok ()) ∧ hand = placed bytes

namespace Saving

variable {Inv : (κ → σ) → FileSystem → Prop} {key : κ} {path : Path} {away hand : σ}
  {drafted : Draft → Option ByteArray → σ} {placed : ByteArray → σ} {host : Host} {draft : Draft} {text : String}
  {bytes : ByteArray} (saving : Saving Inv key path away drafted placed)

include saving

theorem keeps_makeDirectories {post : Option (Except SystemError Unit) → σ → Prop} (directory : Path)
    (answered : ∀ answer, post (some answer) hand) :
    (Routine.makeDirectories directory).Keeps host Inv key post hand := by
  refine Routine.keeps_ask fun hands world inv mine => ?_
  rcases performed : world.makeDirectories host directory with ⟨answer, after⟩
  have kept : Inv hands after.files := by
    rcases World.files_of_makeDirectories_any performed with same | made
    · rwa [same]
    · rw [made]
      exact saving.makeDirectories inv directory
  simp only [Request.perform, performed]
  exact ⟨hand, kept_unmoved kept mine, answered answer⟩

theorem keeps_createTemporary {post : Option (Except SystemError Path) → σ → Prop}
    (refused : ∀ error, post (some (.error error)) away)
    (created : ∀ draft : Draft, post (some (.ok draft.file)) (drafted draft none)) :
    (Routine.createTemporary path.directory).Keeps host Inv key post away := by
  refine Routine.keeps_ask fun hands world inv mine => ?_
  rcases performed : world.createTemporary host path.directory with ⟨error | temporary, after⟩
  · have same := World.files_of_createTemporary_error performed
    simp only [Request.perform, performed]
    exact ⟨away, kept_unmoved (same ▸ inv) mine, refused error⟩
  · obtain ⟨draft, rfl, kept⟩ := saving.createTemporary inv mine (World.files_of_createTemporary performed)
    simp only [Request.perform, performed]
    exact ⟨drafted draft none, kept, created draft⟩

theorem keeps_setMode (mode : Nat) {post : Option (Except SystemError Unit) → σ → Prop}
    (answered : ∀ answer, post (some answer) (drafted draft none)) :
    (Routine.setMode draft.file mode).Keeps host Inv key post (drafted draft none) := by
  refine Routine.keeps_ask fun hands world inv mine => ?_
  rcases performed : world.change host (fun files => files.setMode draft.file mode) with ⟨answer, after⟩
  have kept : Inv (Function.update hands key (drafted draft none)) after.files := by
    cases answer with
    | error error => exact kept_unmoved (World.files_of_change_error performed ▸ inv) mine
    | ok done => exact saving.setMode inv mine (World.files_of_change performed)
  simp only [Request.perform, performed]
  exact ⟨_, kept, answered answer⟩

/-- Some of the bytes may be in the file also if the system breaks down. -/
theorem keeps_overwrite (bytes : ByteArray) {post : Option (Except SystemError Unit) → σ → Prop}
    (refused : ∀ error, post (some (.error error)) (drafted draft none))
    (filled : post (some (.ok ())) (drafted draft (some bytes))) :
    (Routine.overwrite draft.file bytes).Keeps host Inv key post (drafted draft none) := by
  refine Routine.keeps_ask fun hands world inv mine => ?_
  rcases performed : world.overwrite host draft.file bytes with ⟨error | done, after⟩
  · have kept : Inv (Function.update hands key (drafted draft none)) after.files := by
      rcases World.files_of_overwrite_error performed with same | ⟨written, partly⟩
      · exact kept_unmoved (same ▸ inv) mine
      · exact saving.overwrite inv mine partly (.inl rfl)
    simp only [Request.perform, performed]
    exact ⟨_, kept, refused error⟩
  · have kept := saving.overwrite inv mine (World.files_of_overwrite performed) (.inr rfl)
    simp only [Request.perform, performed]
    exact ⟨_, kept, filled⟩

theorem keeps_rename {post : Option (Except SystemError Unit) → σ → Prop}
    (refused : ∀ error, post (some (.error error)) (drafted draft (some bytes)))
    (renamed : post (some (.ok ())) (placed bytes)) :
    (Routine.rename draft.file path).Keeps host Inv key post (drafted draft (some bytes)) := by
  refine Routine.keeps_ask fun hands world inv mine => ?_
  rcases performed : world.change host (fun files => files.rename draft.file path) with ⟨error | done, after⟩
  · have same := World.files_of_change_error performed
    simp only [Request.perform, performed]
    exact ⟨_, kept_unmoved (same ▸ inv) mine, refused error⟩
  · have kept := saving.rename inv mine (World.files_of_change performed)
    simp only [Request.perform, performed]
    exact ⟨_, kept, renamed⟩

/-- A replacement that fails leaves the temporary file to the saver. -/
theorem keeps_replace : (replace draft.file path text).run.Keeps host Inv key
    (SavedOr text.toUTF8 placed fun hand => ∃ written, hand = drafted draft written) (drafted draft none) := by
  have fill : (do
      Action.on draft.file (Routine.overwrite draft.file text.toUTF8)
      Action.on path (Routine.rename draft.file path) : Action Unit).run.Keeps host Inv key
      (SavedOr text.toUTF8 placed fun hand => ∃ written, hand = drafted draft written) (drafted draft none) := by
    refine Action.keeps_bind (Action.keeps_on (saving.keeps_overwrite _ (fun error => ?_) ?_))
    · exact .inl ⟨⟨_, rfl⟩, none, rfl⟩
    · exact Action.keeps_on (saving.keeps_rename (fun error => .inl ⟨⟨_, rfl⟩, some _, rfl⟩) (.inr ⟨rfl, rfl⟩))
  refine Action.keeps_bind (Action.keeps_lift (Routine.keeps_still (.stat path) trivial fun _ world _ _ => ?_))
  rcases (Request.perform host (.stat path) world).1 with error | ⟨kind, mode, size⟩
  · exact fill
  cases kind with
  | directory | other => exact fill
  | file =>
    refine Action.keeps_bind (Action.keeps_on (saving.keeps_setMode mode ?_))
    rintro (error | done)
    · exact .inl ⟨⟨_, rfl⟩, none, rfl⟩
    · exact fill

theorem keeps_replaceOrRemove : (replaceOrRemove draft.file path text).run.Keeps host Inv key
    (SavedOr text.toUTF8 placed (· = away)) (drafted draft none) := by
  refine Action.keeps_tryCatch (saving.keeps_replace.mono ?_)
  rintro _ _ (⟨⟨failure, rfl⟩, written, rfl⟩ | ⟨rfl, rfl⟩)
  · refine Action.keeps_bind (Action.keeps_lift (Routine.keeps_ask fun hands world inv mine => ?_))
    have kept := saving.remove inv mine
    generalize left : (world.files.remove draft.file).toOption.getD world.files = files at kept
    refine ⟨away, ?_, .inl ⟨⟨failure, rfl⟩, rfl⟩⟩
    simp only [Request.perform, left]
    exact kept
  · exact .inr ⟨rfl, rfl⟩

/-- A save, whichever way it ends. -/
theorem keeps_save (capture : Capture) (format : Format) : (capture.save path format).run.Keeps host Inv key
    (SavedOr (capture.serialize format).toUTF8 placed (· = away)) away := by
  have failed : ∀ failure : Failure, SavedOr (capture.serialize format).toUTF8 placed (· = away)
      (some (.error failure)) away := fun failure => .inl ⟨⟨failure, rfl⟩, rfl⟩
  refine Action.keeps_bind (Action.keeps_on (saving.keeps_makeDirectories _ ?_))
  rintro (error | done)
  · exact failed _
  refine Action.keeps_bind (Action.keeps_on (saving.keeps_createTemporary (fun error => failed _) fun draft => ?_))
  refine Action.keeps_bind (saving.keeps_replaceOrRemove.mono ?_)
  rintro _ _ (⟨⟨failure, rfl⟩, rfl⟩ | ⟨rfl, rfl⟩)
  · exact failed failure
  · exact Action.keeps_lift (Routine.keeps_still (.tell _) trivial fun _ _ _ _ => .inr ⟨rfl, rfl⟩)

end Saving

end Colorization
