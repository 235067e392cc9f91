import Colorization.Proofs.Snapshot.BatchRecord
import Colorization.Proofs.Snapshot.Confined
import Colorization.Proofs.Token.Saving

/-! Workers of a batch whose outputs are different. Each has its temporary file for itself until that is
in the place of its output, and no other touches that afterwards: so what was captured is in the end in a
file of its own, in whatever file system and however the workers take turns. -/
namespace Colorization

open FileSystem (Charter Draft Extends)
open FileSystem.Charter (Kept)

/-- How far a worker is with its output. -/
inductive Delivery where
  | away
  | drafted (draft : Draft) (written : Option ByteArray)
  | placed (bytes : ByteArray)

namespace Delivery

def draft? : Delivery → Option Draft
  | drafted draft _ => some draft
  | _ => none

/-- What has been written is there. The base is what would be there without the files of the workers. -/
def Stands (base files : FileSystem) (directory path : Path) : Delivery → Prop
  | drafted draft (some bytes) => ∃ mode, files.node? draft.location = some (.file mode (.ofBytes bytes))
  | placed bytes => (∃ name, path.fileName? = some name) ∧ ∃ location,
      base.entry? (directory.baseline path) = .ok (some ⟨location, false⟩) ∧
        ∃ mode, files.node? location = some (.file mode (.ofBytes bytes))
  | _ => True

end Delivery

/-- The outputs of the paths that have a name. -/
def batchCharter (first : FileSystem) (directory : Path) (paths : List Path) : Charter where
  files := first
  paths output := ∃ path ∈ paths, (∃ name, path.fileName? = some name) ∧ output = directory.baseline path
  alone := False

/-- The workers, each with its temporary file. -/
structure AtWork (first : FileSystem) (directory : Path) (paths : List Path) (base : FileSystem)
    (drafts : Nat → Option Draft) (hands : Path → Delivery) (files : FileSystem) : Prop where
  kept : Kept (batchCharter first directory paths) base drafts files
  drafted : ∀ path ∈ paths, drafts (paths.idxOf path) = (hands path).draft?
  stands : ∀ path ∈ paths, (hands path).Stands base files directory path

/-- What is kept while the workers are at work. -/
def Delivers (first : FileSystem) (directory : Path) (paths : List Path) (hands : Path → Delivery)
    (files : FileSystem) : Prop :=
  ∃ base drafts, AtWork first directory paths base drafts hands files

variable {first files after base grown : FileSystem} {directory path other temporary : Path} {paths : List Path}
  {hands : Path → Delivery} {drafts : Nat → Option Draft} {hand : Delivery} {draft : Draft}
  {written written' : Option ByteArray} {bytes : ByteArray} {mode : Nat} {name : String}

theorem FileSystem.getLast?_of_entry?_baseline {entry : Entry} (named : path.fileName? = some name)
    (entered : files.entry? (directory.baseline path) = .ok (some entry)) :
    entry.location.getLast? = some path.baselineName := by
  rw [Path.baseline_eq named] at entered
  rw [Path.baselineName_eq named]
  exact getLast?_of_entry?_join (Path.plain_of_fileName? named).baselineSegment entered

/-- What is written and in its place stays there, as long as nothing is done to it. -/
theorem Delivery.Stands.mono (stands : hand.Stands base files directory path) (bases : Extends base grown)
    (same : ∀ location, files.IsFile location →
      (∃ draft, hand.draft? = some draft ∧ location = draft.location) ∨
        (∃ name, path.fileName? = some name) ∧ location.getLast? = some path.baselineName →
      after.node? location = files.node? location) :
    hand.Stands grown after directory path := by
  cases hand with
  | away => trivial
  | drafted draft written =>
    cases written with
    | none => trivial
    | some bytes =>
      obtain ⟨mode, there⟩ := stands
      exact ⟨mode, (same draft.location ⟨mode, _, there⟩ (.inl ⟨draft, rfl, rfl⟩)).trans there⟩
  | placed bytes =>
    obtain ⟨⟨name, named⟩, location, entered, mode, there⟩ := stands
    have last := FileSystem.getLast?_of_entry?_baseline named entered
    exact ⟨⟨name, named⟩, location, FileSystem.entry?_of_firm bases.firm entered, mode,
      (same location ⟨mode, _, there⟩ (.inr ⟨⟨name, named⟩, last⟩)).trans there⟩

theorem Delivery.draft?_of_drafted (mine : hand = .drafted draft written) : hand.draft? = some draft := by
  rw [mine]
  rfl

theorem AtWork.held (atWork : AtWork first directory paths base drafts hands files) (member : path ∈ paths)
    (mine : hands path = .drafted draft written) : drafts (paths.idxOf path) = some draft :=
  (atWork.drafted path member).trans (Delivery.draft?_of_drafted mine)

/-- A worker changes no regular files but its temporary file and what is under the name of its output. -/
theorem AtWork.change (distinct : DistinctBaselines directory {path | path ∈ paths}) (member : path ∈ paths)
    (named : path.fileName? = some name) (atWork : AtWork first directory paths base drafts hands files)
    (kept : Kept (batchCharter first directory paths) base
      (Function.update drafts (paths.idxOf path) hand.draft?) after)
    (same : ∀ location, files.IsFile location →
      (∀ draft, (hands path).draft? = some draft → location ≠ draft.location) →
      location.getLast? ≠ some path.baselineName → after.node? location = files.node? location)
    (mine : hand.Stands base after directory path) :
    Delivers first directory paths (Function.update hands path hand) after := by
  have apart : ∀ other ∈ paths, other ≠ path → paths.idxOf other ≠ paths.idxOf path :=
    fun other member' differs same => differs ((List.idxOf_inj member').mp same)
  refine ⟨base, _, kept, fun other member' => ?_, fun other member' => ?_⟩
  · rcases eq_or_ne other path with rfl | differs
    · rw [Function.update_self, Function.update_self]
    · rw [Function.update_of_ne (apart other member' differs), Function.update_of_ne differs,
        atWork.drafted other member']
  rcases eq_or_ne other path with rfl | differs
  · rwa [Function.update_self]
  rw [Function.update_of_ne differs]
  refine (atWork.stands other member').mono (.refl _) fun location isFile others => ?_
  refine same location isFile (fun draft isHeld together => ?_) fun last => ?_
  · rcases others with ⟨draft', isHeld', isDraft⟩ | ⟨-, last⟩
    · rw [← atWork.drafted path member] at isHeld
      rw [← atWork.drafted other member'] at isHeld'
      exact atWork.kept.location_ne isHeld isHeld' (apart other member' differs) (isDraft.symm.trans together)
    · rw [together, Draft.location, List.getLast?_concat, Option.some.injEq] at last
      exact FileSystem.temporaryName_ne_baselineName _ _ last
  · rcases others with ⟨draft', -, isDraft⟩ | ⟨⟨name', named'⟩, last'⟩
    · rw [isDraft, Draft.location, List.getLast?_concat, Option.some.injEq] at last
      exact FileSystem.temporaryName_ne_baselineName _ _ last
    · rw [last', Option.some.injEq] at last
      exact differs (distinct.eq_of_name member' named' member named last)

namespace Delivers

/-- Before the workers begin, directories may have been made. -/
theorem start (branches : FileSystem.Branches first files) : Delivers first directory paths (fun _ => .away) files :=
  ⟨files, fun _ => none, .start branches, fun _ _ => rfl, fun _ _ => trivial⟩

theorem nested (delivers : Delivers first directory paths hands files) (nested : first.Nested) : files.Nested :=
  have ⟨_, _, atWork⟩ := delivers
  atWork.kept.nested_files nested

/-- More directories are nothing to the workers. -/
theorem makeDirectories (delivers : Delivers first directory paths hands files) (made : Path) :
    Delivers first directory paths hands (files.makeDirectories made).2 := by
  obtain ⟨base, drafts, atWork⟩ := delivers
  obtain ⟨grown, more, kept⟩ := atWork.kept.makeDirectories made
  refine ⟨grown, drafts, kept, atWork.drafted, fun path member => ?_⟩
  refine (atWork.stands path member).mono more.extends ?_
  rintro location ⟨mode, content, there⟩ -
  rw [there, (FileSystem.extends_makeDirectories files made).node _ _ there]

section Requests

variable (distinct : DistinctBaselines directory {path | path ∈ paths}) (member : path ∈ paths)
  (named : path.fileName? = some name) (delivers : Delivers first directory paths hands files)

include distinct member named delivers

theorem createTemporary (mine : hands path = .away)
    (created : files.createTemporary (directory.baseline path).directory = .ok (temporary, after)) :
    ∃ draft : Draft, draft.file = temporary ∧
      Delivers first directory paths (Function.update hands path (.drafted draft none)) after := by
  obtain ⟨base, drafts, atWork⟩ := delivers
  have without : drafts (paths.idxOf path) = none := by rw [atWork.drafted path member, mine]; rfl
  have owned : (batchCharter first directory paths).paths (directory.baseline path) :=
    ⟨path, member, ⟨name, named⟩, rfl⟩
  obtain ⟨draft, isFile, kept'⟩ := atWork.kept.createTemporary False.elim without owned created
  obtain ⟨location, free, rfl, -⟩ := FileSystem.drafts_createTemporary created
  have more := FileSystem.extends_set free (.file FileSystem.fileMode (.ofBytes .empty))
  refine ⟨draft, isFile, atWork.change distinct member named kept' ?_ trivial⟩
  rintro location ⟨mode, content, there⟩ - -
  rw [there, more.node _ _ there]

/-- The worker's own file is written to. -/
theorem write (mine : hands path = .drafted draft written) (mode : Nat) (content : Content)
    (known : ∀ bytes, written' = some bytes → content = .ofBytes bytes) :
    Delivers first directory paths (Function.update hands path (.drafted draft written'))
      (files.set draft.location (.file mode content)) := by
  obtain ⟨base, drafts, atWork⟩ := delivers
  have isHeld := atWork.held member mine
  have kept : Kept (batchCharter first directory paths) base
      (Function.update drafts (paths.idxOf path) (Delivery.drafted draft written').draft?)
      (files.set draft.location (.file mode content)) := by
    rw [Delivery.draft?, ← isHeld, Function.update_eq_self]
    exact atWork.kept.write False.elim isHeld mode content
  refine atWork.change distinct member named kept (fun location _ apart _ => ?_) ?_
  · exact (FileSystem.sameBut_set ..).node _ (apart draft (Delivery.draft?_of_drafted mine))
  cases written' with
  | none => trivial
  | some bytes => exact ⟨mode, by rw [FileSystem.node?_set_self draft.location_ne_nil, known bytes rfl]⟩

theorem setMode (mine : hands path = .drafted draft none) (set : files.setMode draft.file mode = .ok after) :
    Delivers first directory paths (Function.update hands path (.drafted draft none)) after := by
  have ⟨base, drafts, atWork⟩ := delivers
  have isHeld := atWork.held member mine
  obtain ⟨place, found, -⟩ := bind_eq_ok_iff.mp set
  obtain ⟨mode', content, file⟩ := atWork.kept.fileAt_of_find isHeld found
  cases (file.setMode mode).symm.trans set
  exact delivers.write distinct member named mine mode content nofun

/-- What is written is known if all of it is. -/
theorem overwrite (mine : hands path = .drafted draft none) {bytes : ByteArray}
    (filled : files.overwrite draft.file (.ofBytes bytes) = .ok after)
    (known : written' = none ∨ written' = some bytes) :
    Delivers first directory paths (Function.update hands path (.drafted draft written')) after := by
  have ⟨base, drafts, atWork⟩ := delivers
  have isHeld := atWork.held member mine
  obtain ⟨place, found, -⟩ := bind_eq_ok_iff.mp filled
  obtain ⟨mode, content, file⟩ := atWork.kept.fileAt_of_find isHeld found
  cases (file.overwrite (.ofBytes bytes)).symm.trans filled
  refine delivers.write distinct member named mine mode _ ?_
  rintro written rfl
  rcases known with known | known
  · cases known
  · cases known
    rfl

theorem rename {bytes : ByteArray} (mine : hands path = .drafted draft (some bytes))
    (renamed : files.rename draft.file (directory.baseline path) = .ok after) :
    Delivers first directory paths (Function.update hands path (.placed bytes)) after := by
  obtain ⟨base, drafts, atWork⟩ := delivers
  have isHeld := atWork.held member mine
  have kept' := atWork.kept.rename False.elim isHeld ⟨path, member, ⟨name, named⟩, rfl⟩ renamed
  have stands := atWork.stands path member
  rw [mine] at stands
  obtain ⟨mode, there⟩ := stands
  obtain ⟨entry, entered, rest⟩ := bind_eq_ok_iff.mp renamed
  cases entry with
  | none =>
    obtain ⟨_, _, refused⟩ := bind_eq_ok_iff.mp rest
    cases refused
  | some entry =>
    obtain ⟨mode', content, file⟩ := atWork.kept.fileAt_of_entry isHeld entered
    obtain ⟨-, isContent⟩ := FileSystem.Node.file.inj (Option.some.inj (file.there.symm.trans there))
    subst isContent
    obtain ⟨place, target, -, rfl⟩ := file.rename renamed
    have last := FileSystem.getLast?_of_entry?_baseline named target
    refine atWork.change distinct member named kept' (fun location isThere apart other => ?_) ?_
    · have notPlace : location ≠ place := by
        rintro rfl
        exact other last
      rw [(FileSystem.sameBut_set ..).node _ notPlace,
        (FileSystem.sameBut_erase ..).node _ (apart draft (Delivery.draft?_of_drafted mine))]
    · exact ⟨⟨name, named⟩, place, FileSystem.entry?_of_firm atWork.kept.firm target, mode',
        FileSystem.node?_set_self (FileSystem.location_ne_nil target) _⟩

/-- The temporary file is removed, if it can be found. -/
theorem remove (mine : hands path = .drafted draft written) :
    Delivers first directory paths (Function.update hands path .away)
      ((files.remove draft.file).toOption.getD files) := by
  obtain ⟨base, drafts, atWork⟩ := delivers
  have isHeld := atWork.held member mine
  have kept' := atWork.kept.remove False.elim isHeld
  refine atWork.change distinct member named kept' (fun location isThere apart _ => ?_) trivial
  cases removed : files.remove draft.file with
  | error => rfl
  | ok after =>
    obtain ⟨entry, entered, rest⟩ := bind_eq_ok_iff.mp removed
    cases entry with
    | none => cases rest
    | some entry =>
      obtain ⟨mode, content, file⟩ := atWork.kept.fileAt_of_entry isHeld entered
      cases file.remove.symm.trans removed
      exact (FileSystem.sameBut_erase ..).node _ (apart draft (Delivery.draft?_of_drafted mine))

end Requests

theorem saving (distinct : DistinctBaselines directory {path | path ∈ paths}) (member : path ∈ paths)
    (named : path.fileName? = some name) :
    Saving (Delivers first directory paths) path (directory.baseline path) .away .drafted .placed where
  makeDirectories delivers := delivers.makeDirectories
  createTemporary delivers := delivers.createTemporary distinct member named
  setMode delivers := delivers.setMode distinct member named
  overwrite delivers mine filled _ known := delivers.overwrite distinct member named mine filled known
  rename delivers := delivers.rename distinct member named
  remove delivers := delivers.remove distinct member named

end Delivers

/-- At a path without a file name nothing but a failure is found. -/
theorem Action.LooksAt.keeps {κ σ : Type} [DecidableEq κ] {Inv : (κ → σ) → FileSystem → Prop} {key : κ} {hand : σ}
    {action : Action α} (looks : action.LooksAt path) (nameless : path.fileName? = none)
    (nested : ∀ hands files, Inv hands files → files.Nested) :
    action.run.Keeps host Inv key (fun ended hand' => (∃ failure, ended = some (.error failure)) ∧ hand' = hand)
      hand := by
  obtain ⟨next, isStep, refused, folder⟩ := looks
  rw [isStep]
  intro hands world inv mine
  have unmoved := kept_unmoved inv mine
  rcases asked : world.look host (fun files => files.stat path) with ⟨error | answer, after⟩
  all_goals
    rw [← World.files_of_look asked] at unmoved
    refine ⟨hand, by rwa [Request.perform, asked], ?_⟩
    rw [Request.perform, asked]
  · rw [refused]
    exact ⟨⟨_, rfl⟩, rfl⟩
  · obtain ⟨-, seen, -⟩ := World.look_eq_ok_iff.mp asked
    rw [folder answer (FileSystem.stat_nameless (nested hands world.files inv) nameless seen)]
    exact ⟨⟨_, rfl⟩, rfl⟩

/-- A worker that captures has put its capture in its place. -/
theorem Colorizer.keeps_captureInto (distinct : DistinctBaselines directory {path | path ∈ paths})
    (member : path ∈ paths) (nested : first.Nested) (colorizer : Colorizer) :
    (colorizer.captureInto (some directory) path).run.Keeps host (Delivers first directory paths) path
      (fun (ended : Option (Except Failure Capture)) hand => ∀ capture, ended = some (.ok capture) →
        (∃ name, path.fileName? = some name) ∧ hand = .placed (capture.serialize colorizer.format).toUTF8) .away := by
  cases named : path.fileName? with
  | none =>
    have looks := colorizer.looksAt_captureInto (some directory) path
    refine (looks.keeps named fun _ _ delivers => delivers.nested nested).mono ?_
    rintro _ _ ⟨⟨failure, rfl⟩, -⟩
    exact nofun
  | some name =>
    refine Action.keeps_bind ((colorizer.still_capture path).keeps ?_)
    rintro (_ | failure | capture)
    · exact nofun
    · exact nofun
    refine Action.keeps_bind (((Delivers.saving distinct member named).keeps_save capture colorizer.format).mono ?_)
    rintro _ _ (⟨⟨failure, rfl⟩, -⟩ | ⟨rfl, rfl⟩)
    · exact nofun
    · rintro _ ⟨⟩
      exact ⟨⟨name, rfl⟩, rfl⟩

end Colorization
