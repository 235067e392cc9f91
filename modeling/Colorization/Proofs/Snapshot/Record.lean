import Colorization.Proofs.FileSystem.Sharing
import Colorization.Proofs.Routine.Keeps
import Colorization.Proofs.Snapshot.Failure
import Mathlib.Logic.Relation

/-! What one operation leaves on the disk: directories, and the baselines of the captures that it
has accepted. -/
namespace Colorization

open FileSystem (Grows LinkFree Stocked)
open Colorization.Action (Returns Fails)

section Named

variable {κ σ : Type} [DecidableEq κ] {host : Host} {Inv : (κ → σ) → FileSystem → Prop} {key : κ}

/-- Only what has a file name is a source. -/
theorem keeps_validateSource (rooted : ∀ hands files, Inv hands files → files.Rooted) (path : Path)
    (hand : σ) :
    (validateSource path).run.Keeps host Inv key (fun ended hand' => hand' = hand ∧
      ∀ value, ended = some (.ok value) → ∃ name, path.fileName? = some name) hand := by
  have asked : (Routine.stat path).Keeps host Inv key (fun ended hand' => hand' = hand ∧
      ∃ reply : Except SystemError Stat, ended = some reply ∧ ∀ answer, reply = .ok answer →
        answer.kind ≠ .directory → ∃ name, path.fileName? = some name) hand := by
    refine Routine.keeps_still (.stat path) trivial fun hands world inv _ => ⟨rfl, _, rfl, ?_⟩
    intro answer looked notFolder
    have told := (World.look_eq_ok_iff.mp (Prod.ext looked rfl)).2.1
    exact FileSystem.named_of_stat (rooted hands world.files inv).nested told notFolder
  refine Action.keeps_bind (Action.keeps_lift (asked.mono ?_))
  rintro _ _ ⟨rfl, error | answer, rfl, named⟩
  · exact ⟨rfl, fun _ same => by cases same⟩
  dsimp only [Option.map_some]
  split
  · exact ⟨rfl, fun _ same => by cases same⟩
  next notFolder =>
    split
    · exact ⟨rfl, fun _ same => by cases same⟩
    have opens : (Request.openFile path).Still := trivial
    refine Routine.Still.keeps (Action.Still.bind (Action.still_lift (Routine.still_ask opens))
      fun opened => ?_) fun _ => ⟨rfl, fun _ _ => named answer rfl notFolder⟩
    cases opened <;> trivial

theorem Colorizer.keeps_capture (rooted : ∀ hands files, Inv hands files → files.Rooted)
    (colorizer : Colorizer) (path : Path) (hand : σ) :
    (colorizer.capture path).run.Keeps host Inv key (fun ended hand' => hand' = hand ∧
      ∀ capture, ended = some (.ok capture) → ∃ name, path.fileName? = some name) hand := by
  refine Action.keeps_bind ((keeps_validateSource rooted path hand).mono ?_)
  rintro ended _ ⟨rfl, named⟩
  match ended with
  | none => exact ⟨rfl, nofun⟩
  | some (.error failure) => exact ⟨rfl, nofun⟩
  | some (.ok value) =>
    have named := named value rfl
    have still := Action.Still.bind (colorizer.tokenizer.still_tokens path) fun tokens =>
      Action.still_pure (tokens.restrict colorizer.themes)
    exact Routine.Still.keeps still fun _ => ⟨rfl, fun _ _ => named⟩

end Named

variable {results fixture other directory : Path} {fixtures : Set Path}
  {first before after : FileSystem} {place : Location × FileSystem.Node}

/-- One of the directories for results is made, as far as it can be. -/
def Equips (results : Path) (before after : FileSystem) : Prop :=
  ∃ directory ∈ [results, results.baselineDirectory], after = (before.makeDirectories directory).2

/-- Directories for results are made, any number of times. -/
def Equipped (results : Path) : FileSystem → FileSystem → Prop := Relation.ReflTransGen (Equips results)

namespace Equipped

theorem made (member : directory ∈ [results, results.baselineDirectory]) (files : FileSystem) :
    Equipped results files (files.makeDirectories directory).2 :=
  .single ⟨directory, member, rfl⟩

theorem trans {middle : FileSystem} (one : Equipped results before middle)
    (two : Equipped results middle after) : Equipped results before after :=
  Relation.ReflTransGen.trans one two

theorem prepared (named : fixture.fileName? = some name) (files : FileSystem) :
    Equipped results files (files.prepared (results.baseline fixture)) := by
  rw [FileSystem.prepared, Path.directory_baseline named]
  exact made (List.mem_cons_of_mem _ List.mem_cons_self) files

theorem grows (equipped : Equipped results before after) : Grows before after := by
  induction equipped with
  | refl => exact .refl before
  | tail _ step ih =>
    obtain ⟨directory, -, rfl⟩ := step
    exact ih.trans (FileSystem.grows_makeDirectories ..)

theorem rooted (equipped : Equipped results before after) (rooted : before.Rooted) : after.Rooted := by
  induction equipped with
  | refl => exact rooted
  | tail _ step ih =>
    obtain ⟨directory, -, rfl⟩ := step
    exact ih.makeDirectories directory

/-- A baseline goes on behind the directories. -/
theorem route_baseline (named : fixture.fileName? = some name)
    (member : directory ∈ [results, results.baselineDirectory]) :
    directory.isAbsolute = (results.baseline fixture).isAbsolute ∧
      ∃ more ≠ [], (results.baseline fixture).route = directory.route ++ more := by
  have plain := (Path.plain_of_fileName? named).baselineSegment
  rw [Path.baseline_eq named]
  rcases List.mem_pair.mp member with rfl | rfl
  · exact ⟨(Path.isAbsolute_join _ plain.noSlash).symm, _, by simp, Path.route_join _ plain⟩
  · obtain ⟨absolute, route⟩ := Path.route_directory (Path.fileName?_join results plain)
    rw [← Path.baseline_eq named, Path.directory_baseline named] at absolute route
    exact ⟨Path.baseline_eq named ▸ absolute, _, by simp, Path.baseline_eq named ▸ route⟩

/-- That the directories are made lets no baseline appear where results do not climb. -/
theorem find_of_find (equipped : Equipped results before after) (rooted : before.Rooted)
    (named : fixture.fileName? = some name) (level : .parent ∉ results.components)
    (found : after.find (results.baseline fixture) = .ok place) :
    before.find (results.baseline fixture) = .ok place := by
  have level : .parent ∉ (results.baseline fixture).components := by
    rw [Path.components_baseline named]
    simpa using level
  induction equipped with
  | refl => exact found
  | tail earlier step ih =>
    obtain ⟨directory, member, rfl⟩ := step
    obtain ⟨absolute, more, notEmpty, route⟩ := route_baseline named member
    exact ih (FileSystem.find_of_find_made (Equipped.rooted earlier rooted) absolute route notEmpty level found)

end Equipped

/-- The names of the baselines of what is accepted. -/
def acceptedNames (accepted : Path → Option Capture) : Set String :=
  {name | ∃ fixture capture, accepted fixture = some capture ∧ fixture.baselineName = name}

/-- The operation has accepted these captures, and leaves nothing else but directories. -/
structure Recorded (results : Path) (fixtures : Set Path) (before after : FileSystem)
    (accepted : Path → Option Capture) : Prop where
  stocked : ∃ ground, Equipped results before ground ∧ Stocked (acceptedNames accepted) ground after
  member : ∀ {fixture capture}, accepted fixture = some capture →
    fixture ∈ fixtures ∧ ∃ name, fixture.fileName? = some name
  held : ∀ {fixture capture}, accepted fixture = some capture →
    after.Holds (results.baseline fixture) capture

theorem recorded_none (equipped : Equipped results before after) :
    Recorded results fixtures before after fun _ => none :=
  ⟨⟨after, equipped, .refl _ _⟩, nofun, nofun⟩

/-- One capture, and none of other fixtures. -/
def only (fixture : Path) (current : Capture) : Path → Option Capture :=
  Function.update (fun _ => none) fixture (some current)

theorem only_eq_some_iff {current capture : Capture} :
    only fixture current other = some capture ↔ other = fixture ∧ current = capture := by
  by_cases same : other = fixture
  · subst same
    simp [only]
  · simp [only, same]

/-- The capture takes the place of what was accepted before. -/
theorem or_only (fixture : Path) (current : Capture) (accepted : Path → Option Capture) :
    (fun other => (only fixture current other).or (accepted other)) =
      Function.update accepted fixture (some current) := by
  funext other
  by_cases same : other = fixture
  · subst same
    simp [only]
  · simp [only, same]

theorem recorded_only {current : Capture} (member : fixture ∈ fixtures)
    (named : fixture.fileName? = some name) (equipped : Equipped results before ground)
    (stocked : Stocked {fixture.baselineName} ground after)
    (held : after.Holds (results.baseline fixture) current) :
    Recorded results fixtures before after (only fixture current) := by
  refine ⟨⟨ground, equipped, stocked.mono ?_⟩, fun {other capture} taken => ?_,
    fun {other capture} taken => ?_⟩
  · rintro _ rfl
    exact ⟨fixture, current, only_eq_some_iff.mpr ⟨rfl, rfl⟩, rfl⟩
  · obtain ⟨rfl, rfl⟩ := only_eq_some_iff.mp taken
    exact ⟨member, name, named⟩
  · obtain ⟨rfl, rfl⟩ := only_eq_some_iff.mp taken
    exact held

namespace SnapshotRunner

variable {host : Host} {before after : World} {runner : SnapshotRunner} {current : Capture}
  {outcome : Outcome} {failure : Option Failure}

/-- A check that returns has found its capture, or has put it in its place. -/
theorem held_or_replaced_of_check
    (returned : Returns host (runner.check fixture current) before outcome after) :
    (after.files = before.files ∧ before.files.Holds (runner.baselineOf fixture) current) ∨
    (before.files.prepared (runner.baselineOf fixture)).Replaced after.files (runner.baselineOf fixture)
      (current.serialize runner.colorizer.format).toUTF8 := by
  obtain ⟨there, looked, asked, rest⟩ := Action.returns_bind.mp returned
  rw [← (isThere_of_returns asked).1]
  cases there with
  | true =>
    obtain ⟨former, loaded, load, settled⟩ := Action.returns_bind.mp rest
    obtain ⟨-, held, rfl⟩ := Capture.returns_load.mp load
    have held : looked.tick.files.Holds (runner.baselineOf fixture) former := held
    have checked := checked_of_settle held settled
    by_cases passed : outcome = .passed
    · subst passed
      exact .inl ⟨checked.untouched, checked.passed_iff.mp rfl⟩
    · exact .inr (checked.written passed)
  | false =>
    obtain ⟨⟨⟩, written, write, rest⟩ := Action.returns_bind.mp rest
    obtain ⟨rfl, rfl⟩ := Action.returns_pure.mp rest
    exact .inr (replaced_of_write write)

/-- A run that returns has accepted its capture. -/
theorem recorded_of_run (member : fixture ∈ fixtures) (rooted : before.files.Rooted)
    (linkFree : before.files.LinkFree)
    (returned : Returns host (runner.run mode fixture) before outcome after)
    (captures : runner.colorizer.Captures host before.files fixture current) :
    Recorded runner.resultsDir fixtures before.files after.files (only fixture current) := by
  obtain ⟨current', captured, capture, rest⟩ := Action.returns_bind.mp returned
  obtain ⟨name, named⟩ := Colorizer.named_of_capture rooted capture
  obtain ⟨captures', unchanged⟩ := Colorizer.captures_of_capture capture
  obtain rfl := captures.unique captures'
  rw [← unchanged] at linkFree ⊢
  have stood : (after.files = captured.files ∧ captured.files.Holds (runner.baselineOf fixture) current) ∨
      (captured.files.prepared (runner.baselineOf fixture)).Replaced after.files (runner.baselineOf fixture)
        (current.serialize runner.colorizer.format).toUTF8 := by
    cases mode with
    | check => exact held_or_replaced_of_check rest
    | «export» =>
      obtain ⟨⟨⟩, written, write, rest⟩ := Action.returns_bind.mp rest
      obtain ⟨rfl, rfl⟩ := Action.returns_pure.mp rest
      exact .inr (replaced_of_write write)
  rcases stood with ⟨same, held⟩ | replaced
  · rw [same]
    exact recorded_only member named .refl (.refl _ _) held
  · have equipped : Equipped runner.resultsDir captured.files
        (captured.files.prepared (runner.baselineOf fixture)) := .prepared named _
    have held : after.files.Holds (runner.baselineOf fixture) current :=
      FileSystem.holds_of_read (replaced.read (equipped.grows.linkFree linkFree))
    exact recorded_only member named equipped (replaced.stocked_baseline named) held

/-- A run that fails has accepted nothing. -/
theorem recorded_of_failed_run (rooted : before.files.Rooted)
    (failed : Fails host (runner.run mode fixture) before failure after) :
    Recorded runner.resultsDir fixtures before.files after.files fun _ => none := by
  refine recorded_none ?_
  have spared := spared_of_failed_run failed
  rcases Action.fails_bind.mp failed with failed | ⟨current, captured, capture, -⟩
  · rw [Action.files_of_fails (runner.colorizer.still_capture _) failed]
    exact .refl
  · obtain ⟨name, named⟩ := Colorizer.named_of_capture rooted capture
    rcases spared with same | same
    · rw [same]
      exact .refl
    · rw [same]
      exact .prepared named _

end SnapshotRunner

end Colorization
