import Colorization.Proofs.FileSystem.Firm
import Colorization.Proofs.Routine.Returns
import Colorization.Proofs.Token.RoundTrip
import Colorization.Token.File

/-! What it means that a capture was loaded or saved: a file that the path leads to held it,
and a file in the place of the path's entry holds it. -/
namespace Colorization

/-- The file that the path leads to is a document of the capture. -/
def FileSystem.Holds (files : FileSystem) (path : Path) (capture : Capture) : Prop :=
  ∃ text : String, files.read path = .ok text.toUTF8 ∧ Capture.deserialize text = .ok capture

namespace FileSystem

variable {files before after : FileSystem} {path : Path} {capture : Capture}

theorem Holds.unique (holds : files.Holds path first) (other : files.Holds path second) :
    first = second := by
  obtain ⟨text, readText, parsed⟩ := holds
  obtain ⟨text', readText', parsed'⟩ := other
  have bytes : text.toUTF8 = text'.toUTF8 := Except.ok.inj (readText.symm.trans readText')
  have same : text = text' := by
    have texts := congrArg Text.ofBytes bytes
    rw [Text.ofBytes_toUTF8, Text.ofBytes_toUTF8] at texts
    exact Except.ok.inj texts
  subst same
  exact Except.ok.inj (parsed.symm.trans parsed')

theorem holds_of_read (wrote : files.read path = .ok (capture.serialize format).toUTF8) :
    files.Holds path capture :=
  ⟨_, wrote, Capture.deserialize_serialize capture format⟩

theorem stat_of_holds (holds : files.Holds path capture) : ∃ stat, files.stat path = .ok stat := by
  obtain ⟨text, readText, -⟩ := holds
  obtain ⟨location, node, found, -, -⟩ := read_eq_ok_iff.mp readText
  simp only [stat, found, bind, Except.bind]
  cases node <;> exact ⟨_, rfl⟩

/-- A path that leads to a document does not run through a link that is replaced. -/
theorem not_runsThroughItself_of_holds (holds : before.Holds path capture) :
    ¬ (before.prepared path).RunsThroughItself path := by
  obtain ⟨text, readText, -⟩ := holds
  obtain ⟨location, node, found, notFolder, -⟩ := read_eq_ok_iff.mp readText
  have stillFound := find_of_extends (extends_makeDirectories before path.directory) found
  exact not_runsThroughItself_of_find stillFound notFolder

end FileSystem

theorem Text.eq_of_ofBytes (decoded : Text.ofBytes bytes = .ok text) : bytes = text.toUTF8 := by
  unfold Text.ofBytes String.fromUTF8? at decoded
  split at decoded
  next valid =>
    split at valid
    · cases valid
      cases decoded
      rfl
    · cases valid
  next => cases decoded

namespace Capture

open Colorization.Action (Returns)

variable {host : Host} {before after : World} {path : Path} {capture : Capture}

theorem run_readText_iff : (Routine.readText path).run host before = (some (.ok text), after) ↔
    before.look host (fun files => files.read path) = (.ok text.toUTF8, after) := by
  rw [Routine.readText, Routine.run_bind_eq_some_iff]
  constructor
  · rintro ⟨answer, middle, asked, decoded⟩
    have looked := (Routine.run_ask_iff (.read path)).mp asked
    cases answer with
    | error error => cases decoded
    | ok bytes =>
      cases valid : Text.ofBytes bytes with
      | error fault => simp [valid, Routine.run] at decoded
      | ok text' =>
        simp only [valid, mapError_ok, Routine.pure_eq, Routine.run, Prod.mk.injEq,
          Option.some.injEq, Except.ok.injEq] at decoded
        obtain ⟨rfl, rfl⟩ := decoded
        rw [← Text.eq_of_ofBytes valid]
        exact looked
  · intro looked
    refine ⟨_, after, (Routine.run_ask_iff (.read path)).mpr looked, ?_⟩
    simp only [Text.ofBytes_toUTF8, mapError_ok, Routine.pure_eq, Routine.run]

theorem returns_load : Returns host (load path) before capture after ↔
    host.breakdown? before.clock = none ∧ before.files.Holds path capture ∧ before.tick = after := by
  simp only [load, Action.returns_bind, Action.returns_on, run_readText_iff,
    World.look_eq_ok_iff]
  constructor
  · rintro ⟨text, middle, ⟨whole, readText, rfl⟩, parsed⟩
    cases valid : Capture.deserialize text with
    | error fault =>
      rw [valid] at parsed
      exact absurd parsed (Action.not_returns_throw _)
    | ok capture' =>
      rw [valid] at parsed
      obtain ⟨rfl, rfl⟩ := Action.returns_pure.mp parsed
      exact ⟨whole, ⟨text, readText, valid⟩, rfl⟩
  · rintro ⟨whole, ⟨text, readText, valid⟩, rfl⟩
    refine ⟨text, _, ⟨whole, readText, rfl⟩, ?_⟩
    rw [valid]
    exact Action.returns_pure.mpr ⟨rfl, rfl⟩

/-- The steps from a temporary file to the file that it becomes. -/
theorem replacedBy_of_fill {files : FileSystem} {temporary : Path} {text : String}
    (drafts : files.Drafts before.files temporary mode content)
    (returned : Returns host (do
      Action.on temporary (Routine.overwrite temporary text.toUTF8)
      Action.on path (Routine.rename temporary path)) before () after) :
    files.ReplacedBy after.files path mode text.toUTF8 := by
  obtain ⟨⟨⟩, filled, overwritten, renamed⟩ := Action.returns_bind.mp returned
  have overwritten := (Routine.run_ask_iff (.overwrite ..)).mp (Action.returns_on.mp overwritten)
  have renamed : filled.change host (fun files => files.rename temporary path) = (.ok (), after) :=
    (Routine.run_ask_iff (.rename ..)).mp (Action.returns_on.mp renamed)
  have full := drafts.overwrite (World.files_of_overwrite overwritten)
  exact full.rename (World.files_of_change renamed)

/-- Without an answer there is no mode to keep. -/
theorem modeAfter_of_look (asked : before.look host (fun files => files.stat path) = (answer, looked)) :
    FileSystem.modeAfter answer =
      if host.breakdown? before.clock = none then before.files.modeAt path else FileSystem.fileMode := by
  unfold World.look at asked
  split at asked <;> (cases asked; simp [*]; rfl)

theorem replacedBy_of_replace {files : FileSystem} {temporary : Path} {text : String}
    (drafts : files.Drafts before.files temporary FileSystem.fileMode content)
    (returned : Returns host (replace temporary path text) before () after) :
    files.ReplacedBy after.files path
      (if host.breakdown? before.clock = none then before.files.modeAt path else FileSystem.fileMode)
      text.toUTF8 := by
  obtain ⟨answer, looked, asked, rest⟩ := Action.returns_bind.mp returned
  have asked : before.look host (fun files => files.stat path) = (answer, looked) :=
    (Action.returns_request (.stat path)).mp asked
  rw [← World.files_of_look asked] at drafts
  rw [← modeAfter_of_look asked]
  split at rest
  next _ mode _ _ =>
    obtain ⟨⟨⟩, changed, set, rest⟩ := Action.returns_bind.mp rest
    have set : looked.change host (fun files => files.setMode temporary mode) = (.ok (), changed) :=
      (Routine.run_ask_iff (.setMode ..)).mp (Action.returns_on.mp set)
    exact replacedBy_of_fill (drafts.setMode (World.files_of_change set)) rest
  next noFile =>
    have ordinary : FileSystem.modeAfter answer = FileSystem.fileMode := by
      rcases answer with error | ⟨kind, mode, size⟩
      · rfl
      · cases kind
        case file => exact absurd rfl (noFile mode size)
        all_goals rfl
    rw [ordinary]
    exact replacedBy_of_fill drafts rest

/-- A failure is not mended by removing the temporary file. -/
theorem returns_replaceOrRemove {temporary : Path} {text : String} :
    Returns host (replaceOrRemove temporary path text) before () after ↔
      Returns host (replace temporary path text) before () after := by
  apply Action.returns_tryCatch
  intro failure world returned
  obtain ⟨⟨⟩, removed, -, rest⟩ := Action.returns_bind.mp returned
  exact Action.not_returns_throw failure rest

/-- The mode is looked for where the directories are made and the temporary file is. -/
theorem replacedBy_of_save (returned : Returns host (capture.save path format) before () after) :
    (before.files.prepared path).ReplacedBy after.files path
      (if host.breakdown? (before.clock + 2) = none then (before.files.prepared path).modeAt path
        else FileSystem.fileMode)
      (capture.serialize format).toUTF8 := by
  obtain ⟨⟨⟩, prepared, made, rest⟩ := Action.returns_bind.mp returned
  obtain ⟨temporary, started, created, rest⟩ := Action.returns_bind.mp rest
  obtain ⟨⟨⟩, replaced, renamed, told⟩ := Action.returns_bind.mp rest
  have made := (Routine.run_ask_iff (.makeDirectories ..)).mp (Action.returns_on.mp made)
  have created := (Routine.run_ask_iff (.createTemporary ..)).mp (Action.returns_on.mp created)
  have drafts := FileSystem.drafts_createTemporary (World.files_of_createTemporary created)
  rw [World.files_of_makeDirectories made] at drafts
  have late : started.clock = before.clock + 2 := by
    rw [World.clock_of_createTemporary created, World.clock_of_makeDirectories made]
  rw [Action.files_of_tell told, FileSystem.prepared, ← late, ← drafts.modeAt]
  exact replacedBy_of_replace drafts (returns_replaceOrRemove.mp renamed)

theorem replaced_of_save (returned : Returns host (capture.save path format) before () after) :
    (before.files.prepared path).Replaced after.files path (capture.serialize format).toUTF8 :=
  (replacedBy_of_save returned).replaced

end Capture

end Colorization
