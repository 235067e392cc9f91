import Colorization.Proofs.CommandLine.Comparing
import Colorization.Proofs.Snapshot.Agreement
import Colorization.Proofs.Snapshot.Certificate
import Colorization.Proofs.Token.Chartered

/-! The files that a run writes: those of its command and no others, whatever the settings, the files
and the tokenizer are, and however the run ends. -/
namespace Colorization

open Colorization.Action (Returns Fails)
open FileSystem (Charter Branches)

variable {host : Host} {before after : World}

namespace FileSystem.Charter

variable {charter : Charter} {key : Nat} {path output baseline fixture : Path} {paths : List Path}
  {colorizer : Colorizer} {runner : SnapshotRunner} {mode : Mode}

section Workers

theorem abides_captureToFile (first : charter.alone → key = 0) (owned : charter.paths output)
    (colorizer : Colorizer) (path : Path) : charter.Abides host key (colorizer.captureToFile path output) :=
  (abides_of_still (colorizer.still_capture path)).bind fun tokens =>
    (abides_save first owned tokens colorizer.format).bind fun _ => abides_of_still (Action.still_pure _)

theorem abides_tell (event : Event) : charter.Abides host key (liftM (Routine.tell event)) :=
  abides_of_still (Action.still_lift (Routine.still_ask trivial))

theorem abides_write (first : charter.alone → key = 0) (owned : charter.paths baseline)
    (runner : SnapshotRunner) (current : Capture) (event : Event) :
    charter.Abides host key (runner.write current baseline event) :=
  (abides_save first owned current runner.colorizer.format).bind fun _ => abides_tell event

theorem abides_settle (first : charter.alone → key = 0) (owned : charter.paths (runner.baselineOf fixture))
    (former current : Capture) : charter.Abides host key (runner.settle fixture former current) := by
  have written : ∀ event, charter.Abides host key (runner.write current (runner.baselineOf fixture) event) :=
    abides_write first owned runner current
  unfold SnapshotRunner.settle
  dsimp only
  split
  · exact (abides_tell _).bind fun _ => abides_of_still (Action.still_pure _)
  · exact (abides_tell _).bind fun _ => (written _).bind fun _ => abides_of_still (Action.still_pure _)
  · exact (abides_tell _).bind fun _ => (written _).bind fun _ => abides_of_still (Action.still_pure _)

theorem abides_run (first : charter.alone → key = 0) (owned : charter.paths (runner.baselineOf fixture))
    (mode : Mode) : charter.Abides host key (runner.run mode fixture) := by
  refine (abides_of_still (runner.colorizer.still_capture fixture)).bind fun current => ?_
  have written : ∀ event, charter.Abides host key (runner.write current (runner.baselineOf fixture) event) :=
    abides_write first owned runner current
  cases mode with
  | «export» => exact (written _).bind fun _ => abides_of_still (Action.still_pure _)
  | check =>
    refine (abides_of_still (still_isThere _)).bind fun isThere => ?_
    cases isThere with
    | false => exact (written _).bind fun _ => abides_of_still (Action.still_pure _)
    | true => exact (abides_of_still (Capture.still_load _)).bind fun former =>
        abides_settle first owned former current

end Workers

section Programs

/-- No group has more than one worker if there are no others to help. -/
theorem single_of_alone (alone : charter.alone → host.helpers = 0) (paths : List Path) :
    charter.alone → ∀ group ∈ groups host.helpers paths, group.length ≤ 1 := fun isAlone group member => by
  simpa [alone isAlone] using length_le_of_mem_groups member

theorem Followed.captureMany (alone : charter.alone → host.helpers = 0)
    (owned : ∀ source ∈ paths, charter.paths (Path.baseline output source))
    (ends : (colorizer.captureMany paths (some output)).run.Ends host before result after)
    (followed : charter.Followed (fun _ => none) before.files) :
    charter.Followed (fun _ => none) after.files := by
  rcases Colorizer.ends_captureMany ends with ⟨-, -, same | made⟩ |
    ⟨entries, prepared, gathered, ready, gathers, -, left⟩
  · rwa [same]
  · rw [made]
    exact followed.makeDirectories output
  · rw [left]
    refine .gathers gathers (single_of_alone alone paths) (fun source member key first => ?_)
      (ready ▸ followed.makeDirectories output)
    exact abides_captureToFile first (owned source (flatten_groups host.helpers paths ▸ member)) colorizer source

theorem Followed.runSuite (runner : SnapshotRunner) (alone : charter.alone → host.helpers = 0)
    (owned : ∀ fixture ∈ paths, charter.paths (runner.baselineOf fixture))
    (ends : (runner.runSuite paths mode).Ends host before result after)
    (followed : charter.Followed (fun _ => none) before.files) :
    charter.Followed (fun _ => none) after.files := by
  obtain ⟨results, middle, gathers, -, left⟩ := SnapshotRunner.gathers_of_ends ends
  rw [left]
  refine .gathers gathers (single_of_alone alone paths) (fun fixture member key first => ?_) followed
  exact abides_run first (owned fixture (flatten_groups host.helpers paths ▸ member)) mode

theorem Followed.captureFixtures (alone : charter.alone → host.helpers = 0)
    (owned : ∀ fixtures seen, Returns host (discoverFixtures path extensions) before fixtures seen →
      ∀ fixture ∈ fixtures, charter.paths (Path.baseline output fixture))
    (ends : (colorizer.captureFixtures path output extensions).run.Ends host before result after)
    (followed : charter.Followed (fun _ => none) before.files) :
    charter.Followed (fun _ => none) after.files := by
  have looks : charter.Abides host 0 (discoverFixtures path extensions) :=
    abides_of_still (still_discoverFixtures path extensions)
  rcases discovered : (discoverFixtures path extensions).run.run host before with ⟨_ | failure | fixtures, seen⟩
  all_goals have followed := Followed.run looks followed discovered
  · obtain ⟨-, rfl⟩ := ends_captureFixtures_of_fails (show Fails _ _ _ none _ from discovered) ends
    exact followed
  · obtain ⟨-, rfl⟩ := ends_captureFixtures_of_fails (show Fails _ _ _ (some failure) _ from discovered) ends
    exact followed
  · exact followed.captureMany alone (owned fixtures seen discovered)
      ((ends_captureFixtures_of_returns discovered).mp ends)

end Programs

end FileSystem.Charter

namespace CommandLine

/-- The paths that a command is to write, given what there is when it begins: the fixtures that are
discovered, and the two captures that are compared. -/
inductive Command.Targets (config : Config) (colorizer : Colorizer) (host : Host) (ready : World) :
    Command → Path → Prop where
  | colorize : Targets config colorizer host ready (.colorize file output) (output.getD file.colorized)
  | batch : file ∈ files → Targets config colorizer host ready (.batch files outDir) (outDir.baseline file)
  | fixtures : Returns host (discoverFixtures config.fixturesDir config.fixtureExtensions) ready found seen →
      fixture ∈ found → Targets config colorizer host ready (.fixtures outDir)
        ((outDir.getD config.resultsDir).baseline fixture)
  | test : Returns host (discoverFixtures config.fixturesDir config.fixtureExtensions) ready found seen →
      fixture ∈ found → Targets config colorizer host ready (.test exporting)
        (config.resultsDir.baseline fixture)
  | exports : Returns host (discoverFixtures config.fixturesDir config.fixtureExtensions) ready found seen →
      fixture ∈ found → Targets config colorizer host ready (.export outDir)
        ((outDir.getD config.exportsDir).baseline fixture)
  | compare : Returns host (Capture.load baseline) ready former loaded →
      Returns host (colorizer.capture source) loaded current taken → former ≠ current →
      Targets config colorizer host ready (.compare baseline source true json) baseline

/-- Whether the work of a command is done by workers. -/
def Command.hasWorkers : Command → Bool
  | .batch .. | .fixtures _ | .test _ | .export _ => true
  | .colorize .. | .compare .. | .config => false

end CommandLine

open CommandLine (Command)

namespace FileSystem.Charter

variable {charter : Charter} {config : Config} {colorizer : Colorizer} {task : Task}

theorem Followed.compareWithBaseline {baseline source : Path} {update json : Bool}
    (owned : ∀ former loaded current taken, update = true →
      Returns host (Capture.load baseline) before former loaded →
      Returns host (colorizer.capture source) loaded current taken → former ≠ current → charter.paths baseline)
    (ends : (colorizer.compareWithBaseline baseline source update json).run.Ends host before result after)
    (followed : charter.Followed (fun _ => none) before.files) :
    charter.Followed (fun _ => none) after.files := by
  have loads : charter.Abides host 0 (Capture.load baseline) := abides_of_still (Capture.still_load baseline)
  have captures : charter.Abides host 0 (colorizer.capture source) :=
    abides_of_still (colorizer.still_capture source)
  rcases Errand.ends_during_bind_iff.mp ends with ⟨failure, failed, -⟩ | ⟨former, loaded, load, ends⟩
  · exact .run loads followed failed
  have followed := Followed.run loads followed load
  rcases Errand.ends_during_bind_iff.mp ends with ⟨failure, failed, -⟩ | ⟨current, taken, take, ends⟩
  · exact .run captures followed failed
  have followed : charter.Followed (fun _ => none) taken.files := .run captures followed take
  have followed : charter.Followed (fun _ => none)
      (taken.shows .output ((former.compare current).text json)).files := followed
  have ends := (Errand.ends_perform_bind_iff rfl).mp ends
  split at ends
  next wanted =>
    simp only [Bool.and_eq_true, Bool.not_eq_true', Colorizer.identical_compare, decide_eq_false_iff_not]
      at wanted
    have saves : charter.Abides host 0 (current.save baseline colorizer.format) :=
      abides_save (fun _ => rfl) (owned former loaded current taken wanted.1 load take wanted.2) current _
    rcases Errand.ends_during_bind_iff.mp ends with ⟨failure, failed, -⟩ | ⟨⟨⟩, saved, save, ends⟩
    · exact .run saves followed failed
    have followed : charter.Followed (fun _ => none) saved.files := .run saves followed save
    have ends := (Errand.ends_perform_bind_iff rfl).mp ends
    obtain ⟨-, rfl⟩ := Program.ends_done_iff.mp ends
    exact followed
  next =>
    obtain ⟨-, rfl⟩ := Program.ends_done_iff.mp ends
    exact followed

/-- What is reported at the end changes no files. -/
theorem Followed.reported {stage : Option Stage} {undertaking : Undertaking α} {text : α → String}
    {verdict : α → Bool}
    (undertaken : ∀ ended middle, undertaking.run.Ends host before ended middle →
      charter.Followed (fun _ => none) middle.files)
    (ends : (do
      let report ← Errand.during stage undertaking
      Errand.perform (Routine.print (text report))
      return verdict report : Errand Bool).run.Ends host before result after) :
    charter.Followed (fun _ => none) after.files := by
  have stops : ∀ {ended}, (Errand.during stage undertaking).run.Ends host before ended after →
      charter.Followed (fun _ => none) after.files := fun stopped =>
    have ⟨_, ends, _⟩ := Errand.ends_during_iff.mp stopped
    undertaken _ _ ends
  rcases Program.ends_except_bind_iff.mp ends with ⟨report, middle, returned, ends⟩ | ⟨failure, -, failed⟩ |
    ⟨-, panicked⟩
  · obtain ⟨ended, returned, -⟩ := Errand.ends_during_iff.mp returned
    have ends := (Errand.ends_perform_bind_iff rfl).mp ends
    obtain ⟨-, rfl⟩ := Program.ends_done_iff.mp ends
    exact undertaken _ middle returned
  · exact stops failed
  · exact stops panicked

/-- A suite writes the baselines of the fixtures that are discovered. -/
theorem Followed.suite {fixturesDir resultsDir : Path} (alone : charter.alone → host.helpers = 0)
    (owned : ∀ found seen, Returns host (discoverFixtures fixturesDir extensions) before found seen →
      ∀ fixture ∈ found, charter.paths (resultsDir.baseline fixture))
    (ends : (colorizer.carryOut extensions (.suite fixturesDir resultsDir mode)).run.Ends host before result
      after)
    (followed : charter.Followed (fun _ => none) before.files) :
    charter.Followed (fun _ => none) after.files := by
  have looks : charter.Abides host 0 (discoverFixtures fixturesDir extensions) :=
    abides_of_still (still_discoverFixtures fixturesDir extensions)
  rcases Colorizer.ends_suite_iff.mp ends with ⟨failure, failed, -⟩ |
    ⟨found, seen, returned, report, left, done, -, rfl⟩
  · exact .run looks followed failed
  · have followed : charter.Followed (fun _ => none) (seen.announced mode found.length).files := by
      rw [World.files_announced]
      exact .run looks followed returned
    have followed : charter.Followed (fun _ => none) left.files :=
      .runSuite ⟨colorizer, resultsDir⟩ alone (owned found seen returned) done followed
    exact followed

/-- A command writes its targets. -/
theorem Followed.carryOut {command : Command}
    (resolved : CommandLine.Arguments.task config command = .ok task)
    (owned : ∀ path, command.Targets config colorizer host before path → charter.paths path)
    (alone : charter.alone → command.hasWorkers = true → host.helpers = 0)
    (ends : (colorizer.carryOut config.fixtureExtensions task).run.Ends host before result after)
    (followed : charter.Followed (fun _ => none) before.files) :
    charter.Followed (fun _ => none) after.files := by
  cases command with
  | colorize file output =>
    simp only [CommandLine.Arguments.task] at resolved
    split at resolved
    · cases resolved
    cases resolved
    have captures : charter.Abides host 0 (colorizer.captureToFile file (output.getD file.colorized)) :=
      abides_captureToFile (fun _ => rfl) (owned _ .colorize) colorizer file
    rcases Errand.ends_during_bind_iff.mp ends with ⟨failure, failed, -⟩ | ⟨tokens, middle, returned, ends⟩
    · exact .run captures followed failed
    · have followed : charter.Followed (fun _ => none) middle.files := .run captures followed returned
      have ends := (Errand.ends_perform_bind_iff rfl).mp ends
      obtain ⟨-, rfl⟩ := Program.ends_done_iff.mp ends
      exact followed
  | batch files outDir =>
    cases resolved
    refine Followed.reported (fun ended middle ends => ?_) ends
    exact followed.captureMany (fun isAlone => alone isAlone rfl) (fun file member => owned _ (.batch member)) ends
  | fixtures outDir =>
    cases resolved
    refine Followed.reported (fun ended middle ends => ?_) ends
    exact followed.captureFixtures (fun isAlone => alone isAlone rfl)
      (fun found seen returned fixture member => owned _ (.fixtures returned member)) ends
  | compare baseline source update json =>
    cases resolved
    refine followed.compareWithBaseline (fun former loaded current taken wanted load take differs => ?_) ends
    subst wanted
    exact owned _ (.compare load take differs)
  | test exporting =>
    cases resolved
    exact followed.suite (fun isAlone => alone isAlone rfl)
      (fun found seen returned fixture member => owned _ (.test returned member)) ends
  | «export» outDir =>
    cases resolved
    exact followed.suite (fun isAlone => alone isAlone rfl)
      (fun found seen returned fixture member => owned _ (.exports returned member)) ends
  | config =>
    cases resolved
    obtain ⟨-, rfl⟩ := Program.ends_done_iff.mp ends
    exact followed

end FileSystem.Charter

section Settings

theorem Config.still_ofFile (path : Path) : (Config.ofFile path).Still := by
  refine .bind (Routine.still_readText path) fun answer => ?_
  split
  · trivial
  split
  · trivial
  · exact .bind (Routine.still_ask trivial) fun _ => trivial

theorem Config.still_ofCandidates (paths : List Path) : (Config.ofCandidates paths).Still := by
  induction paths with
  | nil => exact .bind (Routine.still_ask trivial) fun _ => trivial
  | cons path rest ih =>
    refine .bind (Routine.still_ask trivial) fun answer => ?_
    split
    · exact .bind (Routine.still_ask trivial) fun _ => ih
    · refine .bind (Config.still_ofFile path) fun answer => ?_
      split
      · trivial
      · exact .bind (Routine.still_ask trivial) fun _ => trivial

theorem Config.still_load (environment : Environment) (asked : Option Path) :
    (Config.load environment asked).Still := by
  unfold Config.load
  split
  · exact Config.still_ofFile _
  · exact .bind (Config.still_ofCandidates _) fun _ => trivial

/-- Directories for the logs may be made. -/
theorem exists_run_ensureLogsDir (environment : Environment) (host : Host) (before : World) :
    ∃ logs logged, (ensureLogsDir environment).run host before = (some logs, logged) ∧
      Branches before.files logged.files := by
  unfold ensureLogsDir
  split
  · exact ⟨_, before, rfl, .refl _⟩
  next path inPlace =>
    rcases made : before.makeDirectories host path with ⟨answer, after⟩
    have branches : Branches before.files after.files := by
      rcases World.files_of_makeDirectories_any made with same | made
      · exact same ▸ .refl _
      · exact made ▸ FileSystem.branches_makeDirectories ..
    have ran := (Routine.run_ask_iff (.makeDirectories path)).mpr made
    rcases answer with error | done
    · exact ⟨_, after, Routine.run_bind_eq_some_iff.mpr ⟨_, _, ran, rfl⟩, branches⟩
    · exact ⟨_, after, Routine.run_bind_eq_some_iff.mpr ⟨_, _, ran, rfl⟩, branches⟩

end Settings

namespace CommandLine

variable {environment : Environment} {args : List String} {arguments : Arguments}

/-- Either there is a task that needs tokens, or the files are only looked at. -/
theorem files_of_execute (ends : (arguments.execute environment).run.Ends host before result after) :
    after.files = before.files ∨ ∃ settings loaded task config program,
      (Config.load environment arguments.config).run host before = (some (.ok settings), loaded) ∧
      loaded.files = before.files ∧ arguments.resolve settings = .ok (task, config) ∧ task ≠ .showConfig ∧
      config.tokenizer.program = some program := by
  have looked := (Config.still_load environment arguments.config).files host before
  rcases ran : (Config.load environment arguments.config).run host before with ⟨loaded, middle⟩
  rw [ran] at looked
  unfold Arguments.execute at ends
  rcases Program.ends_act_iff.mp ends with ⟨answer, middle', ran', ends⟩ | ⟨-, ran'⟩
  all_goals cases ran.symm.trans ran'
  · rcases answer with fault | settings
    · obtain ⟨-, rfl⟩ := Program.ends_done_iff.mp ends
      exact .inl looked
    simp only [Program.bind, mapError_ok, ExceptT.bindCont] at ends
    rcases resolved : arguments.resolve settings with error | ⟨task, config⟩
    · rw [resolved] at ends
      obtain ⟨-, rfl⟩ := Program.ends_done_iff.mp ends
      exact .inl looked
    rw [resolved] at ends
    change Program.Ends host (ExceptT.run (if task = .showConfig then _ else _)) _ _ _ at ends
    split at ends
    next =>
      have ends := (Errand.ends_perform_bind_iff rfl).mp ends
      obtain ⟨-, rfl⟩ := Program.ends_done_iff.mp ends
      exact .inl looked
    next needed =>
      cases isProgram : config.tokenizer.program with
      | none =>
        rw [TokenizerCommand.tokenizer?, isProgram] at ends
        obtain ⟨-, rfl⟩ := Program.ends_done_iff.mp ends
        exact .inl looked
      | some program => exact .inr ⟨settings, middle, task, config, program, rfl, looked, resolved, needed, isProgram⟩
  · exact .inl looked

/-- A run comes to a task, or makes directories at most. -/
theorem branches_or_asks (ends : (run environment args).Ends host before result after) :
    Branches before.files after.files ∨ ∃ arguments task config program ready, read args = .ok arguments ∧
      Asks environment args host before task config program ready ∧
      Arguments.task config arguments.command = .ok task ∧ Branches before.files ready.files := by
  cases isRead : read args with
  | error error =>
    unfold run at ends
    rw [isRead] at ends
    have still : error.describe.Still := by
      cases error <;> exact Routine.still_ask trivial
    have looked := still.files host before
    rcases Program.ends_act_iff.mp ends with ⟨answer, middle, ran, ends⟩ | ⟨-, ran⟩
    · obtain ⟨-, rfl⟩ := Program.ends_done_iff.mp ends
      exact .inl ((congrArg (fun ended => World.files ended.2) ran).symm.trans looked ▸ .refl _)
    · exact .inl ((congrArg (fun ended => World.files ended.2) ran).symm.trans looked ▸ .refl _)
  | ok arguments =>
    obtain ⟨logs, logged, began, branches⟩ := exists_run_ensureLogsDir environment host before
    obtain ⟨ended, left, executed, -, rfl⟩ := (ends_run_iff isRead began).mp ends
    rw [World.files_closed]
    rcases files_of_execute executed with same | ⟨settings, loaded, task, config, program, load, same, resolved,
      needed, isProgram⟩
    · rw [same, World.files_withLogs]
      exact .inl branches
    · obtain ⟨given, -, rest⟩ := bind_eq_ok_iff.mp resolved
      obtain ⟨named, isTask, rest⟩ := bind_eq_ok_iff.mp rest
      cases rest
      refine .inr ⟨arguments, _, _, program, _, rfl, .asks isRead began load resolved needed isProgram, isTask, ?_⟩
      show Branches before.files loaded.files
      rw [same, World.files_withLogs]
      exact branches

/-- The paths that a run may write: the targets of its command, with the settings that it comes to. -/
def MayWrite (environment : Environment) (args : List String) (host : Host) (before : World) (path : Path) :
    Prop :=
  ∃ arguments task config program ready, read args = .ok arguments ∧
    Asks environment args host before task config program ready ∧
    arguments.command.Targets config (config.colorizer program) host ready path

/-- Only the workers of one command can be at work together. -/
def charter (environment : Environment) (args : List String) (host : Host) (before : World) : Charter where
  files := before.files
  paths := MayWrite environment args host before
  alone := ∀ arguments, read args = .ok arguments → arguments.command.hasWorkers = true → host.helpers = 0

/-- What a run does to regular files. -/
structure WritesOwn (environment : Environment) (args : List String) (host : Host) (before after : World) :
    Prop where
  observed : (charter environment args host before).Observed after.files
  /-- Settings are shown and nothing is written. -/
  config : ∀ arguments, read args = .ok arguments → arguments.command = .config →
    ∀ location, FileSystem.FileKept before.files after.files location
  /-- Captures are compared and nothing is written, unless that is wanted and they differ. -/
  compare : ∀ arguments baseline source update json, read args = .ok arguments →
    arguments.command = .compare baseline source update json →
    (update = true → ∀ task config program ready former loaded current taken,
      Asks environment args host before task config program ready →
      Returns host (Capture.load baseline) ready former loaded →
      Returns host ((config.colorizer program).capture source) loaded current taken → former = current) →
    ∀ location, FileSystem.FileKept before.files after.files location

theorem observed_of_ends (ends : (run environment args).Ends host before result after) :
    (charter environment args host before).Observed after.files := by
  refine Charter.Followed.observed ?_
  rcases branches_or_asks ends with branches | ⟨arguments, task, config, program, ready, isRead, asks, isTask,
    branches⟩
  · exact .start branches
  · obtain ⟨ended, left, done, -, rfl⟩ := (ends_iff_of_asks asks).mp ends
    rw [World.files_closed]
    refine Charter.Followed.carryOut isTask (fun path target => ?_) (fun alone => alone arguments isRead) done
      (.start branches)
    exact ⟨arguments, task, config, program, ready, isRead, asks, target⟩

/-- Without workers and targets all files are kept. -/
theorem fileKept_of_no_targets (observed : (charter environment args host before).Observed after.files)
    (isRead : read args = .ok arguments) (alone : arguments.command.hasWorkers = false)
    (none : ∀ path, ¬ MayWrite environment args host before path) (location : Location) :
    FileSystem.FileKept before.files after.files location := by
  by_contra changed
  rcases (observed.changed location changed).2 with ⟨path, target, -⟩ | ⟨notAlone, -⟩
  · exact none path target
  · refine notAlone fun arguments' isRead' hasWorkers => ?_
    cases isRead.symm.trans isRead'
    rw [alone] at hasWorkers
    cases hasWorkers

/-- A run ends, and whichever way it does it has written its own files only. -/
theorem run_writes_own (environment : Environment) (args : List String) (host : Host) (before : World) :
    (∃ result after, (run environment args).Ends host before result after) ∧
    ∀ result after, (run environment args).Ends host before result after →
      WritesOwn environment args host before after := by
  refine ⟨⟨_, _, Program.ends_run _ host before⟩, fun result after ends => ?_⟩
  have observed := observed_of_ends ends
  refine ⟨observed, fun arguments isRead isConfig => ?_,
    fun arguments baseline source update json isRead isCompare unchanged => ?_⟩
  · refine fileKept_of_no_targets observed isRead (by rw [isConfig]; rfl) ?_
    rintro path ⟨arguments', task, config, program, ready, isRead', -, target⟩
    cases isRead.symm.trans isRead'
    rw [isConfig] at target
    cases target
  · refine fileKept_of_no_targets observed isRead (by rw [isCompare]; rfl) ?_
    rintro path ⟨arguments', task, config, program, ready, isRead', asks, target⟩
    cases isRead.symm.trans isRead'
    rw [isCompare] at target
    cases target with
    | compare load take differs => exact differs (unchanged rfl _ _ _ _ _ _ _ _ asks load take)

/-- Two sources beside a link with the name of a baseline, through which their baselines are reached. -/
def crossing : FileSystem where
  nodes := [(["sub"], .directory FileSystem.directoryMode), (["x_js.json"], .link ⟨"sub"⟩),
    (["x.js"], .file 0o644 (.ofText "[]")), (["y.js"], .file 0o644 (.ofText "[]"))]
  working := []

/-- Two workers go on at a time. -/
def crossingHost : Host := { Host.printing with helpers := 1 }

/-- The world when the directory for the baselines has been seen to. -/
def crossingStart : World :=
  ((Colorizer.prepare [⟨"x.js"⟩, ⟨"y.js"⟩] (some ⟨"x_js.json/.."⟩)).run.run crossingHost (readied crossing)).2

/-- The workers for both sources. -/
def crossingPool : List (Routine (Except Failure Capture)) :=
  [⟨"x.js"⟩, ⟨"y.js"⟩].map fun path =>
    ((printingConfig.colorizer "cat").captureInto (some ⟨"x_js.json/.."⟩) path).run

/-- The second worker has made its temporary file when the first does all of its work. -/
theorem crossing_course : ∃ log pool after,
    Course crossingHost crossingPool crossingStart log pool after ∧
      (pool.all Routine.hasEnded) = true ∧ after.files.IsFile [".colorsnap-0"] := by
  have course := course_play crossingHost [1, 1, 1, 1, 1, 1, 0, 0, 0, 0, 0, 0, 0, 0, 0, 0, 1, 1, 1] crossingPool
    crossingStart
  exact ⟨_, _, _, course, by decide +kernel, by decide +kernel⟩

theorem exists_ended {pool : List (Routine α)} (ended : pool.all Routine.hasEnded = true) :
    ∃ ends, List.Forall₂ Routine.Ended pool ends := by
  induction pool with
  | nil => exact ⟨[], .nil⟩
  | cons routine pool ih =>
    simp only [List.all_cons, Bool.and_eq_true] at ended
    obtain ⟨ends, others⟩ := ih ended.2
    cases routine with
    | done value => exact ⟨_, .cons .done others⟩
    | panic => exact ⟨_, .cons .panic others⟩
    | step => cases ended.1

/-- A file that is written where the output leads nowhere any more, and a temporary file that a worker
leaves when the other has closed the way to it. -/
theorem writes_beyond_targets :
    (∃ after, (run ⟨none, none⟩
        ["colorize", "x.js", "--output", "x_js.json/../x_js.json", "--tokenizer", "cat"]).Ends .printing
        (.start crossing) (some 0) after ∧
      ¬ crossing.IsFile ["x_js.json"] ∧ after.files.IsFile ["x_js.json"] ∧
      after.files.read ⟨"x_js.json/../x_js.json"⟩ = .error .notDirectory) ∧
    ∃ code after, (run ⟨none, none⟩
        ["batch", "x.js", "y.js", "--out-dir", "x_js.json/..", "--tokenizer", "cat"]).Ends crossingHost
        (.start crossing) code after ∧
      ¬ crossing.IsFile [".colorsnap-0"] ∧ after.files.IsFile [".colorsnap-0"] := by
  constructor
  -- the output runs through the link that it replaces
  · have asks : Asks ⟨none, none⟩ ["colorize", "x.js", "--output", "x_js.json/../x_js.json", "--tokenizer", "cat"]
        .printing (.start crossing) (.colorize ⟨"x.js"⟩ ⟨"x_js.json/../x_js.json"⟩) printingConfig "cat"
        (readied crossing) := asks_of_read 0 rfl rfl rfl rfl nofun
    have written : Action.returnsWith .printing
        ((printingConfig.colorizer "cat").captureToFile ⟨"x.js"⟩ ⟨"x_js.json/../x_js.json"⟩) (readied crossing)
        (fun _ after => after.files.IsFile ["x_js.json"] ∧
          after.files.read ⟨"x_js.json/../x_js.json"⟩ = .error .notDirectory) = true := by decide +kernel
    obtain ⟨tokens, after, returned, lost⟩ := Action.returns_of_returnsWith written
    obtain ⟨isThere, lost⟩ := of_decide_eq_true lost
    have done : ((printingConfig.colorizer "cat").carryOut printingConfig.fixtureExtensions
        (.colorize ⟨"x.js"⟩ ⟨"x_js.json/../x_js.json"⟩)).run.Ends .printing (readied crossing) (some (.ok true)) _ :=
      Errand.ends_during_bind_iff.mpr
        (.inr ⟨tokens, after, returned, (Errand.ends_perform_bind_iff rfl).mpr .done⟩)
    exact ⟨_, (ends_iff_of_asks asks).mpr ⟨_, _, done, rfl, rfl⟩, by decide, isThere, lost⟩
  -- the way to the second temporary file runs through the link that the first worker replaces
  · have asks : Asks ⟨none, none⟩ ["batch", "x.js", "y.js", "--out-dir", "x_js.json/..", "--tokenizer", "cat"]
        crossingHost (.start crossing) (.batch [⟨"x.js"⟩, ⟨"y.js"⟩] ⟨"x_js.json/.."⟩) printingConfig "cat"
        (readied crossing) := asks_of_read 1 rfl rfl rfl rfl nofun
    obtain ⟨log, pool, gathered, course, allEnded, left⟩ := crossing_course
    obtain ⟨ends, ended⟩ := exists_ended allEnded
    have one : groups crossingHost.helpers [(⟨"x.js"⟩ : Path), ⟨"y.js"⟩] = [[⟨"x.js"⟩, ⟨"y.js"⟩]] := by
      simp [groups, crossingHost]
    obtain ⟨entries, gathers⟩ : ∃ entries, crossingHost.Gathers
        ((printingConfig.colorizer "cat").captureInto (some ⟨"x_js.json/.."⟩))
        (groups crossingHost.helpers [⟨"x.js"⟩, ⟨"y.js"⟩]) crossingStart entries gathered := by
      rw [one]
      exact ⟨_, .group (turns_iff_course.mpr ⟨log, course⟩) ended .none⟩
    have prepares : Action.returnsWith crossingHost
        (Colorizer.prepare [⟨"x.js"⟩, ⟨"y.js"⟩] (some ⟨"x_js.json/.."⟩)) (readied crossing) (fun _ _ => true) = true := by
      decide +kernel
    obtain ⟨⟨⟩, prepared, returned, -⟩ := Action.returns_of_returnsWith prepares
    obtain rfl : crossingStart = prepared := congrArg Prod.snd returned
    obtain ⟨after, batched, same⟩ := Colorizer.captureMany_of_gathers returned gathers
    have done : ((printingConfig.colorizer "cat").carryOut printingConfig.fixtureExtensions
        (.batch [⟨"x.js"⟩, ⟨"y.js"⟩] ⟨"x_js.json/.."⟩)).run.Ends crossingHost (readied crossing) _ _ :=
      Program.ends_except_bind_iff.mpr (.inl ⟨_, after, Errand.ends_during_iff.mpr ⟨_, batched, rfl⟩,
        (Errand.ends_perform_bind_iff rfl).mpr .done⟩)
    exact ⟨_, _, (ends_iff_of_asks asks).mpr ⟨_, _, done, rfl, rfl⟩, by decide, same ▸ left⟩

end CommandLine

end Colorization
