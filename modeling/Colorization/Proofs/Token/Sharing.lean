import Colorization.Proofs.FileSystem.Sharing
import Colorization.Proofs.Routine.Keeps
import Colorization.Token.File

/-! Saving among others who save into the same directory: how it can end, whatever the others do
meanwhile, and what it leaves. -/
namespace Colorization

open FileSystem (Shelf Hand temporaryPath fileMode)

/-- At some moment the files were these, and the worker was so far. -/
def FileSystem.Shelf.Moment (shelf : Shelf) (fixture : Path) (hand : Hand) (files : FileSystem) : Prop :=
  ∃ hands, shelf.Inv hands files ∧ hands fixture = hand

/-- The mode of the file that is there, as far as the system told it. -/
def FileSystem.Shelf.ModeTold (shelf : Shelf) (host : Host) (fixture : Path) (n mode : Nat) : Prop :=
  (∃ clock, host.breakdown? clock ≠ none) ∨
    ∃ files, shelf.Moment fixture (.holding n fileMode (.ofBytes .empty)) files ∧
      mode = FileSystem.modeAfter (files.stat (shelf.results.baseline fixture))

/-- How the saving of some bytes ends: the system breaks down or refuses one of the requests, or
the bytes are in their place. -/
inductive SaveEnd (shelf : Shelf) (host : Host) (fixture : Path) (bytes : ByteArray) :
    Except Failure Unit → Hand → Prop where
  | broken {failure : Failure} : host.breakdown? clock ≠ none → hand = .away ∨ hand = .inside →
      SaveEnd shelf host fixture bytes (.error failure) hand
  | noDirectory : shelf.Moment fixture .away files →
      (files.makeDirectories shelf.directory).1 = .error error →
      SaveEnd shelf host fixture bytes (.error (.system shelf.directory error)) .away
  | noTemporary : shelf.Moment fixture .inside files →
      files.createTemporary shelf.directory = .error error →
      SaveEnd shelf host fixture bytes (.error (.system shelf.directory error)) .inside
  | notPlaced : shelf.Moment fixture (.holding n mode content) files →
      files.rename (temporaryPath shelf.directory n) (shelf.results.baseline fixture) = .error error →
      SaveEnd shelf host fixture bytes (.error (.system (shelf.results.baseline fixture) error)) .inside
  | placed : shelf.Moment fixture (.holding n mode (.ofBytes bytes)) files →
      files.rename (temporaryPath shelf.directory n) (shelf.results.baseline fixture) = .ok after →
      shelf.ModeTold host fixture n mode →
      SaveEnd shelf host fixture bytes (.ok ()) (.placed mode bytes)

/-- Without a breakdown the answer is that of the files. -/
theorem World.look_told (world : World) (host : Host) (request : FileSystem → Except SystemError α) :
    (∃ clock, host.breakdown? clock ≠ none) ∨ (world.look host request).1 = request world.files := by
  unfold look
  split
  next broke => exact .inl ⟨world.clock, Option.ne_none_iff_exists'.mpr ⟨_, broke⟩⟩
  next => exact .inr rfl

namespace Capture

variable {shelf : Shelf} {host : Host} {fixture : Path} {text : String} {n mode : Nat}
  {content : Content}

/-- An end of the replacement, of which the temporary file may still have to be removed. -/
def ReplaceEnd (shelf : Shelf) (host : Host) (fixture : Path) (bytes : ByteArray) (n : Nat) :
    Option (Except Failure Unit) → Hand → Prop
  | some (.ok ()), hand => SaveEnd shelf host fixture bytes (.ok ()) hand
  | some (.error failure), hand => (∃ mode content, hand = .holding n mode content) ∧
      SaveEnd shelf host fixture bytes (.error failure) .inside
  | none, _ => False

theorem keeps_rename (sound : shelf.Sound) (told : shelf.ModeTold host fixture n mode) :
    (Action.on (shelf.results.baseline fixture)
      (Routine.rename (temporaryPath shelf.directory n) (shelf.results.baseline fixture))).run.Keeps
      host shelf.Inv fixture (ReplaceEnd shelf host fixture bytes n) (.holding n mode (.ofBytes bytes)) := by
  refine Action.keeps_on (Routine.keeps_ask fun hands world inv holds => ?_)
  have unmoved := kept_unmoved inv holds
  simp only [Request.perform, World.change]
  split
  next breakdown broke =>
    refine ⟨_, unmoved, ⟨mode, _, rfl⟩, ?_⟩
    exact .broken (Option.ne_none_iff_exists'.mpr ⟨_, broke⟩) (.inr rfl)
  next =>
    split
    next error refused => exact ⟨_, unmoved, ⟨mode, _, rfl⟩, .notPlaced ⟨hands, inv, holds⟩ refused⟩
    next after renamed =>
      exact ⟨_, inv.rename sound holds renamed, .placed ⟨hands, inv, holds⟩ renamed told⟩

theorem keeps_fill (sound : shelf.Sound) (told : shelf.ModeTold host fixture n mode) :
    (do
      Action.on (temporaryPath shelf.directory n)
        (Routine.overwrite (temporaryPath shelf.directory n) text.toUTF8)
      Action.on (shelf.results.baseline fixture)
        (Routine.rename (temporaryPath shelf.directory n) (shelf.results.baseline fixture)) :
      Action Unit).run.Keeps host shelf.Inv fixture
      (ReplaceEnd shelf host fixture text.toUTF8 n) (.holding n mode content) := by
  refine Action.keeps_bind (Action.keeps_on (Routine.keeps_ask fun hands world inv holds => ?_))
  obtain ⟨location, file, filled⟩ := inv.fileAt sound holds
  simp only [Request.perform, World.overwrite]
  split
  next whole =>
    simp only [World.change, whole, file.overwrite]
    exact ⟨_, filled mode _, keeps_rename sound told⟩
  next breakdown broke =>
    simp only [file.overwrite, Except.toOption, Option.getD_some]
    refine ⟨_, filled mode _, ⟨mode, _, rfl⟩, ?_⟩
    exact .broken (Option.ne_none_iff_exists'.mpr ⟨_, broke⟩) (.inr rfl)

theorem keeps_setMode (sound : shelf.Sound) {post : Option (Except Failure Unit) → Hand → Prop}
    (broken : ∀ failure, (∃ clock, host.breakdown? clock ≠ none) →
      post (some (.error failure)) (.holding n mode content))
    (set : post (some (.ok ())) (.holding n mode' content)) :
    (Action.on (temporaryPath shelf.directory n)
      (Routine.setMode (temporaryPath shelf.directory n) mode')).run.Keeps host shelf.Inv fixture post
      (.holding n mode content) := by
  refine Action.keeps_on (Routine.keeps_ask fun hands world inv holds => ?_)
  obtain ⟨location, file, filled⟩ := inv.fileAt sound holds
  simp only [Request.perform, World.change]
  split
  next breakdown broke =>
    exact ⟨_, kept_unmoved inv holds, broken _ ⟨world.clock, Option.ne_none_iff_exists'.mpr ⟨_, broke⟩⟩⟩
  next =>
    simp only [file.setMode]
    exact ⟨_, filled mode' content, set⟩

/-- The mode is asked for and given to the temporary file before this is filled. -/
theorem keeps_replace (sound : shelf.Sound) :
    (replace (temporaryPath shelf.directory n) (shelf.results.baseline fixture) text).run.Keeps host
      shelf.Inv fixture (ReplaceEnd shelf host fixture text.toUTF8 n)
      (.holding n fileMode (.ofBytes .empty)) := by
  have asked : (Routine.stat (shelf.results.baseline fixture)).Keeps host shelf.Inv fixture
      (fun ended hand => ∃ answer, ended = some answer ∧ hand = .holding n fileMode (.ofBytes .empty) ∧
        shelf.ModeTold host fixture n (FileSystem.modeAfter answer))
      (.holding n fileMode (.ofBytes .empty)) := by
    refine Routine.keeps_still (.stat _) trivial fun hands world inv holds => ⟨_, rfl, rfl, ?_⟩
    refine (world.look_told host fun files =>
      files.stat (shelf.results.baseline fixture)).imp_right fun answered => ?_
    exact ⟨world.files, ⟨hands, inv, holds⟩, congrArg FileSystem.modeAfter answered⟩
  refine Action.keeps_bind (Action.keeps_lift (asked.mono ?_))
  rintro _ _ ⟨answer, rfl, rfl, told⟩
  rcases answer with error | ⟨kind, mode', size⟩
  · exact keeps_fill sound told
  cases kind with
  | directory | other => exact keeps_fill sound told
  | file =>
    refine Action.keeps_bind (keeps_setMode sound (fun failure broke => ?_) (keeps_fill sound told))
    obtain ⟨clock, broke⟩ := broke
    exact ⟨⟨_, _, rfl⟩, .broken broke (.inr rfl)⟩

/-- Whatever fails, the temporary file is removed. -/
theorem keeps_replaceOrRemove (sound : shelf.Sound) :
    (replaceOrRemove (temporaryPath shelf.directory n) (shelf.results.baseline fixture) text).run.Keeps
      host shelf.Inv fixture (fun ended hand => ∃ result, ended = some result ∧
        SaveEnd shelf host fixture text.toUTF8 result hand) (.holding n fileMode (.ofBytes .empty)) := by
  refine Action.keeps_tryCatch ((keeps_replace sound).mono fun ended hand ends => ?_)
  match ended, ends with
  | some (.ok ()), placed => exact ⟨_, rfl, placed⟩
  | some (.error failure), ⟨⟨mode, content, was⟩, stopped⟩ =>
    subst was
    refine Action.keeps_bind (Action.keeps_lift (Routine.keeps_ask fun hands world inv holds => ?_))
    obtain ⟨after, removed, inv'⟩ := inv.remove sound holds
    refine ⟨.inside, ?_, ⟨_, rfl, stopped⟩⟩
    simp only [Request.perform, removed, Except.toOption, Option.getD_some]
    exact inv'

theorem keeps_createTemporary (sound : shelf.Sound) {post : Option (Except Failure Path) → Hand → Prop}
    (broken : ∀ failure, (∃ clock, host.breakdown? clock ≠ none) → post (some (.error failure)) .inside)
    (refused : ∀ files error, shelf.Moment fixture .inside files →
      files.createTemporary shelf.directory = .error error →
      post (some (.error (.system shelf.directory error))) .inside)
    (created : ∀ n, post (some (.ok (temporaryPath shelf.directory n)))
      (.holding n fileMode (.ofBytes .empty))) :
    (Action.on shelf.directory (Routine.createTemporary shelf.directory)).run.Keeps host shelf.Inv fixture
      post .inside := by
  refine Action.keeps_on (Routine.keeps_ask fun hands world inv inside => ?_)
  simp only [Request.perform, World.createTemporary]
  split
  next breakdown broke =>
    exact ⟨_, kept_unmoved inv inside, broken _ ⟨world.clock, Option.ne_none_iff_exists'.mpr ⟨_, broke⟩⟩⟩
  next =>
    split
    next error no => exact ⟨_, kept_unmoved inv inside, refused _ error ⟨hands, inv, inside⟩ no⟩
    next temporary after yes =>
      obtain ⟨n, rfl, inv'⟩ := inv.createTemporary sound inside yes
      exact ⟨_, inv', created n⟩

theorem keeps_makeDirectories (sound : shelf.Sound) (member : shelf.fixtures fixture)
    {post : Option (Except Failure Unit) → Hand → Prop}
    (broken : ∀ failure, (∃ clock, host.breakdown? clock ≠ none) → post (some (.error failure)) .away)
    (refused : ∀ files error, shelf.Moment fixture .away files →
      (files.makeDirectories shelf.directory).1 = .error error →
      post (some (.error (.system shelf.directory error))) .away)
    (made : post (some (.ok ())) .inside) :
    (Action.on shelf.directory (Routine.makeDirectories shelf.directory)).run.Keeps host shelf.Inv fixture
      post .away := by
  refine Action.keeps_on (Routine.keeps_ask fun hands world inv away => ?_)
  obtain ⟨entered, stayed⟩ := inv.makeDirectories sound member away
  have refused := refused world.files
  simp only [Request.perform, World.makeDirectories]
  split
  next breakdown broke =>
    exact ⟨_, kept_unmoved inv away, broken _ ⟨world.clock, Option.ne_none_iff_exists'.mpr ⟨_, broke⟩⟩⟩
  next =>
    rcases answered : world.files.makeDirectories shelf.directory with ⟨error | ⟨⟨⟩⟩, after⟩
    all_goals rw [answered] at entered stayed refused
    · exact ⟨_, kept_unmoved (stayed error rfl) away, refused error ⟨hands, inv, away⟩ rfl⟩
    · exact ⟨_, entered rfl, made⟩

/-- A save among others, from its beginning to its end. -/
theorem keeps_save (sound : shelf.Sound) (member : shelf.fixtures fixture) (capture : Capture)
    (format : Format) :
    (capture.save (shelf.results.baseline fixture) format).run.Keeps host shelf.Inv fixture
      (fun ended hand => ∃ result, ended = some result ∧
        SaveEnd shelf host fixture (capture.serialize format).toUTF8 result hand) .away := by
  obtain ⟨name, named⟩ := sound.named fixture member
  unfold save
  rw [Shelf.directory_baseline named]
  refine Action.keeps_bind (keeps_makeDirectories sound member (fun failure ⟨clock, broke⟩ => ?_)
    (fun files error moment refused => ?_) ?_)
  · exact ⟨_, rfl, .broken broke (.inl rfl)⟩
  · exact ⟨_, rfl, .noDirectory moment refused⟩
  refine Action.keeps_bind (keeps_createTemporary sound (fun failure ⟨clock, broke⟩ => ?_)
    (fun files error moment refused => ?_) fun n => ?_)
  · exact ⟨_, rfl, .broken broke (.inr rfl)⟩
  · exact ⟨_, rfl, .noTemporary moment refused⟩
  refine Action.keeps_bind ((keeps_replaceOrRemove sound).mono ?_)
  rintro _ hand ⟨failure | ⟨⟨⟩⟩, rfl, ends⟩
  · exact ⟨_, rfl, ends⟩
  · exact Action.keeps_lift (Routine.keeps_still (.tell _) trivial fun _ _ _ _ => ⟨_, rfl, ends⟩)

end Capture

end Colorization
