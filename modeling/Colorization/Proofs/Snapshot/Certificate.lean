import Colorization.Proofs.Snapshot.Ledger
import Colorization.Proofs.Snapshot.Report

/-! What a suite that ends well certifies: the capture of every fixture is its baseline. -/
namespace Colorization

open Colorization.Action (Returns Fails)

theorem FileSystem.Holds.of_find {files other : FileSystem} {path : Path} (held : files.Holds path capture)
    (same : other.find path = files.find path) : other.Holds path capture := by
  obtain ⟨text, readBack, parsed⟩ := held
  exact ⟨text, (read_congr same).trans readBack, parsed⟩

namespace SnapshotRunner

variable {host : Host} {before after : World} {runner : SnapshotRunner} {fixture : Path} {current : Capture}
  {outcome : Outcome}

/-- The capture can be put into the place of the baseline. -/
def Saves (runner : SnapshotRunner) (host : Host) (before : World) (fixture : Path) (current : Capture) :
    Prop :=
  ∃ after, Returns host (current.save (runner.baselineOf fixture) runner.colorizer.format) before () after

/-- The capture becomes the first baseline, or is the baseline, or takes the place of one from which
it differs in scopes alone. -/
inductive Accepts (runner : SnapshotRunner) (host : Host) (before : World) (fixture : Path)
    (current : Capture) : Prop where
  | first : before.files.stat (runner.baselineOf fixture) = .error .noEntry →
      runner.Saves host before fixture current → Accepts runner host before fixture current
  | unchanged : before.files.Holds (runner.baselineOf fixture) former →
      former.classify current = .identical → Accepts runner host before fixture current
  | drifted : before.files.Holds (runner.baselineOf fixture) former →
      former.classify current = .cosmetic → runner.Saves host before fixture current →
      Accepts runner host before fixture current

section Alone

variable (reliable : host.Reliable)

include reliable

theorem Saves.of_files {world : World} (saves : runner.Saves host world fixture current)
    (same : world.files = before.files) : runner.Saves host before fixture current := by
  obtain ⟨saved, save⟩ := saves
  obtain ⟨left, save, -⟩ := reliable.returns same save
  exact ⟨left, save⟩

theorem Accepts.of_files {world : World} (accepts : runner.Accepts host world fixture current)
    (same : world.files = before.files) : runner.Accepts host before fixture current := by
  cases accepts with
  | first missing saves => exact .first (same ▸ missing) (saves.of_files reliable same)
  | unchanged held identical => exact .unchanged (same ▸ held) identical
  | drifted held cosmetic saves => exact .drifted (same ▸ held) cosmetic (saves.of_files reliable same)

theorem saves_of_write {world : World} (same : world.files = before.files)
    (returned : Returns host (runner.write current (runner.baselineOf fixture) event) world () after) :
    runner.Saves host before fixture current := by
  obtain ⟨⟨⟩, saved, save, -⟩ := Action.returns_bind.mp returned
  exact Saves.of_files reliable ⟨saved, save⟩ same

theorem exists_write_of_saves {world : World} (same : before.files = world.files) (event : Event)
    (saves : runner.Saves host before fixture current) :
    ∃ after, Returns host (runner.write current (runner.baselineOf fixture) event) world () after := by
  obtain ⟨saved, save⟩ := saves.of_files reliable same
  obtain ⟨after, told⟩ := Action.exists_returns_tell host saved event
  exact ⟨after, Action.returns_bind.mpr ⟨(), saved, save, told⟩⟩

/-- A check that ends well has accepted the capture. -/
theorem accepts_of_check (returned : Returns host (runner.check fixture current) before outcome after)
    (isGood : outcome.isSuccess = true) : runner.Accepts host before fixture current := by
  obtain ⟨there, looked, asked, rest⟩ := Action.returns_bind.mp returned
  obtain ⟨unchanged, missing⟩ := isThere_of_returns asked
  cases there with
  | false =>
    obtain ⟨⟨⟩, written, write, -⟩ := Action.returns_bind.mp rest
    have truthful : host.Truthful := fun n breakdown broke => by
      rw [reliable n] at broke
      cases broke
    exact .first (missing truthful rfl) (saves_of_write reliable unchanged write)
  | true =>
    obtain ⟨former, loaded, load, settled⟩ := Action.returns_bind.mp rest
    obtain ⟨-, held, rfl⟩ := Capture.returns_load.mp load
    rw [unchanged] at held
    unfold settle at settled
    cases classified : former.classify current
    all_goals
      simp only [classified] at settled
      obtain ⟨⟨⟩, told, announced, rest⟩ := Action.returns_bind.mp settled
      have same : told.files = before.files := (Action.files_of_tell announced).trans unchanged
    case identical => exact .unchanged held classified
    case cosmetic =>
      obtain ⟨⟨⟩, written, write, -⟩ := Action.returns_bind.mp rest
      exact .drifted held classified (saves_of_write reliable same write)
    case material =>
      obtain ⟨⟨⟩, written, -, rest⟩ := Action.returns_bind.mp rest
      obtain ⟨rfl, -⟩ := Action.returns_pure.mp rest
      cases isGood

/-- A check of a capture that is to be accepted ends well. -/
theorem exists_check_of_accepts (accepts : runner.Accepts host before fixture current) :
    ∃ outcome after, Returns host (runner.check fixture current) before outcome after ∧
      outcome.isSuccess = true := by
  cases accepts with
  | first missing saves =>
    have asked : Returns host (liftM (Routine.stat (runner.baselineOf fixture))) before (.error .noEntry)
        before.tick := by
      refine (Action.returns_request (.stat _)).mpr ?_
      change before.look host (fun files => files.stat (runner.baselineOf fixture)) = _
      rw [World.look, reliable]
      exact Prod.ext missing rfl
    have same : before.files = before.tick.files := rfl
    obtain ⟨after, write⟩ := exists_write_of_saves reliable same (.created (runner.baselineOf fixture)) saves
    refine ⟨.created, after, Action.returns_bind.mpr ⟨false, before.tick, ?_, ?_⟩, rfl⟩
    · exact Action.returns_bind.mpr ⟨_, _, asked, Action.returns_pure.mpr ⟨rfl, rfl⟩⟩
    · exact Action.returns_bind.mpr ⟨(), after, write, Action.returns_pure.mpr ⟨rfl, rfl⟩⟩
  | unchanged held identical =>
    cases (Capture.classify_eq_identical_iff _ _).mp identical
    obtain ⟨after, checked, -⟩ := returns_check_of_holds reliable runner held
    exact ⟨.passed, after, checked, rfl⟩
  | @drifted former held cosmetic saves =>
    obtain ⟨told, announced⟩ := Action.exists_returns_tell host before.tick.tick
      (.drifted fixture (former.compare current))
    have same : before.files = told.files := (Action.files_of_tell announced).symm
    obtain ⟨after, write⟩ := exists_write_of_saves reliable same (.updated (runner.baselineOf fixture)) saves
    refine ⟨.updatedPass (former.compare current), after,
      returns_check_of_settle reliable runner held ?_, rfl⟩
    rw [settle, cosmetic]
    refine Action.returns_bind.mpr ⟨(), told, announced, ?_⟩
    exact Action.returns_bind.mpr ⟨(), after, write, Action.returns_pure.mpr ⟨rfl, rfl⟩⟩

end Alone

section Independent

variable {fixtures : List Path} (reliable : host.Reliable)
  (independent : Independent runner.resultsDir fixtures before.files) (member : fixture ∈ fixtures)

include independent member

/-- A baseline that can be saved is found where it is saved. -/
theorem direct_of_saves (named : ∃ name, fixture.fileName? = some name)
    (saves : runner.Saves host before fixture current) :
    ¬ (before.files.prepared (runner.baselineOf fixture)).RunsThroughItself (runner.baselineOf fixture) := by
  obtain ⟨after, save⟩ := saves
  refine (Capture.replaced_of_save save).read_iff.mp ?_
  have idle : (Independent.shelf runner.resultsDir fixtures before.files).Inv (fun _ => .away) before.files :=
    ⟨fun _ notAway => absurd rfl notAway, .inl ⟨fun _ => rfl, rfl⟩⟩
  have keeps : (current.save (runner.baselineOf fixture) runner.colorizer.format).run.Keeps host
      (Independent.shelf runner.resultsDir fixtures before.files).Inv fixture _ .away :=
    Capture.keeps_save independent.sound ⟨member, named⟩ current runner.colorizer.format
  obtain ⟨hand, inv, result, ended, ends⟩ := keeps.run idle
  rw [show _ = _ from save] at inv ended
  cases ended
  obtain ⟨mode, rfl⟩ := ends.isPlaced
  obtain ⟨-, folder, mode', busy⟩ := Independent.busy_of_inv inv (by rw [Function.update_self]; nofun)
  have found := inv.find_placed independent.sound busy (Function.update_self ..)
  exact FileSystem.read_eq_ok_iff.mpr ⟨_, _, found, nofun, (Content.bytes_ofBytes _).symm⟩

include reliable

/-- After a check that ends well the baseline is the capture. -/
theorem holds_of_check (named : ∃ name, fixture.fileName? = some name)
    (returned : Returns host (runner.check fixture current) before outcome after)
    (isGood : outcome.isSuccess = true) : after.files.Holds (runner.baselineOf fixture) current := by
  have truthful : host.Truthful := fun n breakdown broke => by
    rw [reliable n] at broke
    cases broke
  have checked := checked_of_check (fun _ => truthful) returned
  cases checked with
  | passed held same => exact same ▸ held
  | updatedPass held differs admits replaced =>
    exact FileSystem.holds_of_read (Checked.read_updated (.updatedPass held differs admits replaced) rfl)
  | updatedFail => cases isGood
  | created missing replaced =>
    cases accepts_of_check reliable returned isGood with
    | first _ saves =>
      have direct := direct_of_saves independent member named saves
      exact FileSystem.holds_of_read (replaced.read_iff.mpr direct)
    | unchanged held | drifted held =>
      obtain ⟨stat, there⟩ := FileSystem.stat_of_holds held
      cases there.symm.trans missing

end Independent

/-- At some moment at which the fixture and its baseline are what they were at first, its capture ends
so. -/
def Given (runner : SnapshotRunner) (host : Host) (files : FileSystem) (fixture : Path)
    (given : Option (Except Failure Capture)) : Prop :=
  ∃ moment : World,
    (∀ path ∈ [fixture, runner.baselineOf fixture], moment.files.find path = files.find path) ∧
    ((runner.colorizer.capture fixture).run.run host moment).1 = given

section Suite

open FileSystem (Hand)

variable {fixtures : List Path} {files : FileSystem}
  {ended : Path → Capture → Option (Except Failure Outcome)} {hand : Path → Capture → Hand}

/-- What has become of a fixture, when its capture is given and the check of each capture is settled. -/
structure Comes (runner : SnapshotRunner) (host : Host) (files : FileSystem)
    (ended : Path → Capture → Option (Except Failure Outcome)) (hand : Path → Capture → Hand) (fixture : Path)
    (ended' : Option (Except Failure Outcome)) (hand' : Hand) (given : Option (Except Failure Capture)) :
    Prop where
  isGiven : runner.Given host files fixture given
  captured : ∀ outcome, ended' = some (.ok outcome) → ∃ current, given = some (.ok current)
  checked : ∀ current, given = some (.ok current) → (∃ name, fixture.fileName? = some name) ∧
    ended' = ended fixture current ∧ hand' = hand fixture current

theorem keeps_run (reliable : host.Reliable) (independent : Independent runner.resultsDir fixtures files)
    (member : fixture ∈ fixtures)
    (keeps : (∃ name, fixture.fileName? = some name) → ∀ current,
      (runner.check fixture current).run.Keeps host (Independent.shelf runner.resultsDir fixtures files).Inv
        fixture (fun ended' hand' => ended' = ended fixture current ∧ hand' = hand fixture current) .away) :
    (runner.run .check fixture).run.Keeps host (Independent.shelf runner.resultsDir fixtures files).Inv
      fixture (fun ended' hand' =>
        ∃ given, Comes runner host files ended hand fixture ended' hand' given) .away := by
  have capture := independent.momentary_capture member reliable runner.colorizer
  refine Action.keeps_bind (capture.mono ?_)
  rintro ended' hand' ⟨unmoved, hands, world, inv, away, ran⟩
  have given : runner.Given host files fixture ended' := by
    refine ⟨world, fun path isOwn => ?_, ran⟩
    exact independent.find_eq inv member (by rw [away]; nofun) isOwn
  match ended' with
  | none => exact ⟨none, given, nofun, nofun⟩
  | some (.error failure) => exact ⟨_, given, nofun, nofun⟩
  | some (.ok current) =>
    cases unmoved current rfl
    have rooted : world.files.Rooted := inv.rooted fun there ground allowed => by
      cases there with
      | false => exact allowed ▸ independent.rooted
      | true => exact allowed.1 ▸ independent.rooted.makeDirectories _
    have named := Colorizer.named_of_capture rooted (Prod.ext ran rfl)
    refine Routine.Keeps.mono (keeps named current) ?_
    rintro ended' hand' ⟨isEnd, isHand⟩
    refine ⟨_, given, fun _ _ => ⟨current, rfl⟩, ?_⟩
    rintro _ ⟨⟩
    exact ⟨named, isEnd, isHand⟩

theorem isGood_resultOf_iff {ended : Option (Except Failure Outcome)} :
    isGood (Host.resultOf fixture ended).2 = true ↔
      ∃ outcome, ended = some (.ok outcome) ∧ outcome.isSuccess = true := by
  rcases ended with _ | failure | outcome <;> simp [Host.resultOf, isGood]

/-- What becomes of a fixture in a suite is what a check of its capture comes to alone. -/
theorem Comes.accepts_iff {ended' : Option (Except Failure Outcome)} {hand' : Hand}
    {given : Option (Except Failure Capture)} (reliable : host.Reliable)
    (comes : Comes runner host before.files ended hand fixture ended' hand' given)
    (alone : (∃ name, fixture.fileName? = some name) → ∀ current,
      ((runner.check fixture current).run.run host before).1 = ended fixture current) :
    isGood (Host.resultOf fixture ended').2 = true ↔
      ∃ current, given = some (.ok current) ∧ runner.Accepts host before fixture current := by
  rw [isGood_resultOf_iff]
  constructor
  · rintro ⟨outcome, isEnd, isGood⟩
    obtain ⟨current, isGiven⟩ := comes.captured outcome isEnd
    obtain ⟨named, isChecked, -⟩ := comes.checked current isGiven
    have returned := (alone named current).trans (isChecked.symm.trans isEnd)
    exact ⟨current, isGiven, accepts_of_check reliable (Prod.ext returned rfl) isGood⟩
  · rintro ⟨current, isGiven, accepts⟩
    obtain ⟨named, isChecked, -⟩ := comes.checked current isGiven
    obtain ⟨outcome, after, returned, isGood⟩ := exists_check_of_accepts reliable accepts
    refine ⟨outcome, ?_, isGood⟩
    rw [isChecked, ← alone named current]
    exact congrArg Prod.fst returned

/-- A suite that ends well has accepted what was given for every fixture, and put it in its place. -/
theorem certified_of_ends (reliable : host.Reliable)
    (independent : Independent runner.resultsDir fixtures before.files)
    (ends : (runner.runSuite fixtures .check).Ends host before (some report) after) :
    ∃ given : Path → Option (Except Failure Capture),
      (∀ fixture ∈ fixtures, runner.Given host before.files fixture (given fixture)) ∧
      (report.isSuccess = true ↔ ∀ fixture ∈ fixtures, ∃ current,
        given fixture = some (.ok current) ∧ runner.Accepts host before fixture current) ∧
      (report.isSuccess = true → ∀ fixture ∈ fixtures, ∀ current, given fixture = some (.ok current) →
        after.files.Holds (runner.baselineOf fixture) current) := by
  have settled := fun fixture (member : fixture ∈ fixtures) (named : ∃ name, fixture.fileName? = some name)
    current => independent.settled_check member reliable named runner rfl current
  choose! ended hand _ keeps using settled
  have idle : (Independent.shelf runner.resultsDir fixtures before.files).Inv (fun _ => .away)
      before.files := ⟨fun _ notAway => absurd rfl notAway, .inl ⟨fun _ => rfl, rfl⟩⟩
  obtain ⟨results, middle, gathers, same, left⟩ := gathers_of_ends ends
  cases same
  have flat := flatten_groups host.helpers fixtures
  have once := independent.nodup
  obtain ⟨hands, inv, entries, -⟩ := gathers.keeps (flat.symm ▸ once) idle fun fixture member =>
    keeps_run reliable independent (flat ▸ member) (keeps fixture (flat ▸ member))
  rw [flat] at entries
  obtain ⟨ends', rfl, comes⟩ := exists_map_resultOf once entries
  choose! given comes using comes
  have alone : ∀ fixture ∈ fixtures, (∃ name, fixture.fileName? = some name) → ∀ current,
      ((runner.check fixture current).run.run host before).1 = ended fixture current := by
    intro fixture member named current
    obtain ⟨_, -, same, -⟩ := (keeps fixture member named current).run idle
    exact same
  have judged : SuiteReport.isSuccess ⟨fixtures.map fun path => Host.resultOf path (ends' path)⟩ = true ↔
      ∀ fixture ∈ fixtures, ∃ current,
        given fixture = some (.ok current) ∧ runner.Accepts host before fixture current := by
    rw [SuiteReport.isSuccess_iff, List.forall_mem_map]
    refine forall₂_congr fun fixture member => ?_
    exact (comes fixture member).accepts_iff reliable (alone fixture member)
  refine ⟨given, fun fixture member => (comes fixture member).isGiven, judged, ?_⟩
  intro isGreen fixture member current isGiven
  obtain ⟨_, isGiven', accepts⟩ := judged.mp isGreen fixture member
  cases isGiven.symm.trans isGiven'
  obtain ⟨named, -, isHand⟩ := (comes fixture member).checked current isGiven
  obtain ⟨outcome, last, returned, isGood⟩ := exists_check_of_accepts reliable accepts
  obtain ⟨hand', inv', -, same⟩ := (keeps fixture member named current).run idle
  rw [show _ = _ from returned] at inv'
  have held := holds_of_check reliable independent member named returned isGood
  rw [left]
  refine held.of_find (independent.find_of_hand member inv inv' ?_)
  rw [isHand, Function.update_self, same]

end Suite

end SnapshotRunner

/-- The exit code is 0 exactly if there are fixtures to be told of and the report tells of no failure. -/
def Judges (host : Host) (runner : SnapshotRunner) (mode : Mode) (discovery : Action (List Path))
    (ready : World) (code : Option Nat) (after : World) : Prop :=
  (∀ fixtures seen, ¬ Returns host discovery ready fixtures seen) ∧ code ≠ some 0 ∨
  ∃ fixtures seen report left, Returns host discovery ready fixtures seen ∧
    (runner.runSuite fixtures mode).Ends host (seen.announced mode fixtures.length) (some report) left ∧
    (code = some 0 ↔ report.isSuccess = true) ∧ after.files = left.files

/-- What the exit code of a check tells of each of the fixtures, `given` being what was captured of them. -/
structure Certifies (host : Host) (runner : SnapshotRunner) (fixturesDir : Path) (extensions : List String)
    (ready : World) (code : Option Nat) (after : World) (given : Path → Option (Except Failure Capture)) :
    Prop where
  isGiven : ∀ fixtures seen, Returns host (discoverFixtures fixturesDir extensions) ready fixtures seen →
    ∀ fixture ∈ fixtures, runner.Given host ready.files fixture (given fixture)
  green_iff : code = some 0 ↔ ready.files.isDirectory fixturesDir = true ∧
    ∀ fixtures seen, Returns host (discoverFixtures fixturesDir extensions) ready fixtures seen →
    ∀ fixture ∈ fixtures, ∃ current,
      given fixture = some (.ok current) ∧ runner.Accepts host ready fixture current
  held : code = some 0 →
    ∀ fixtures seen, Returns host (discoverFixtures fixturesDir extensions) ready fixtures seen →
    ∀ fixture ∈ fixtures, ∀ current, given fixture = some (.ok current) →
      after.files.Holds (runner.baselineOf fixture) current

variable {environment : Environment} {args : List String} {host : Host} {start ready after : World}
  {fixturesDir resultsDir : Path} {mode : Mode} {config : Config} {program : String} {code : Option Nat}

theorem judges_of_ends
    (asks : CommandLine.Asks environment args host start (.suite fixturesDir resultsDir mode) config program
      ready)
    (ends : (CommandLine.run environment args).Ends host start code after) :
    Judges host ⟨config.colorizer program, resultsDir⟩ mode
      (discoverFixtures fixturesDir config.fixtureExtensions) ready code after := by
  obtain ⟨ended, left, done, rfl, rfl⟩ := (CommandLine.ends_iff_of_asks asks).mp ends
  rcases Colorizer.ends_suite_iff.mp done with ⟨failure, fails, rfl⟩ |
    ⟨fixtures, seen, returned, report, last, reported, rfl, rfl⟩
  · refine .inl ⟨fun fixtures seen returned => ?_, ?_⟩
    · have same := returned.symm.trans fails
      cases failure <;> cases same
    · cases failure <;> simp [Errand.exitCode]
  · refine .inr ⟨fixtures, seen, report, last, returned, reported, ?_, rfl⟩
    cases report.isSuccess <;> simp [Errand.exitCode]

theorem exists_certifies {runner : SnapshotRunner} {extensions : List String} (reliable : host.Reliable)
    (independent : ∀ fixtures seen,
      Returns host (discoverFixtures fixturesDir extensions) ready fixtures seen →
      Independent runner.resultsDir fixtures ready.files)
    (judges : Judges host runner .check (discoverFixtures fixturesDir extensions) ready code after) :
    ∃ given, Certifies host runner fixturesDir extensions ready code after given := by
  rcases judges with ⟨undiscovered, notGreen⟩ | ⟨fixtures, seen, report, left, returned, ends, green, same⟩
  · have red : ∀ {P : Prop}, code = some 0 → P := fun isGreen => absurd isGreen notGreen
    refine ⟨fun _ => none, fun fixtures seen returned => absurd returned (undiscovered fixtures seen),
      ⟨red, fun ⟨isThere, _⟩ => ?_⟩, red⟩
    obtain ⟨fixtures, seen, returned⟩ := (exists_discoverFixtures_iff reliable).mpr isThere
    exact absurd returned (undiscovered fixtures seen)
  have unchanged : seen.files = ready.files := files_of_discoverFixtures returned
  have isThere := (exists_discoverFixtures_iff reliable).mp ⟨fixtures, seen, returned⟩
  have apart := independent fixtures seen returned
  rw [← unchanged] at apart
  obtain ⟨given, isGiven, judged, held⟩ := SnapshotRunner.certified_of_ends reliable apart ends
  rw [← green] at judged held
  have only : ∀ {fixtures' seen'},
      Returns host (discoverFixtures fixturesDir extensions) ready fixtures' seen' →
      fixtures' = fixtures := by
    intro fixtures' seen' returned'
    cases returned.symm.trans returned'
    rfl
  refine ⟨given, fun fixtures' seen' returned' => ?_,
    ⟨fun isGreen => ⟨isThere, fun fixtures' seen' returned' fixture member => ?_⟩, fun ⟨_, accepted⟩ => ?_⟩,
    fun isGreen fixtures' seen' returned' => ?_⟩
  · obtain rfl := only returned'
    exact unchanged ▸ isGiven
  · obtain rfl := only returned'
    obtain ⟨current, isGiven, accepts⟩ := judged.mp isGreen fixture member
    exact ⟨current, isGiven, accepts.of_files reliable unchanged⟩
  · refine judged.mpr fun fixture member => ?_
    obtain ⟨current, isGiven, accepts⟩ := accepted fixtures seen returned fixture member
    exact ⟨current, isGiven, accepts.of_files reliable unchanged.symm⟩
  · obtain rfl := only returned'
    exact same ▸ held isGreen

/-- Every report tells of all fixtures, each on its side. The exit code of a run over fixtures is told by
the report; that of a check is 0 exactly if the directory of fixtures is there and what was captured of
each of them is accepted, and it is then in each baseline. -/
theorem test_certifies :
    (∀ (host : Host) (runner : SnapshotRunner) (fixtures : List Path) (mode : Mode) before result after,
      (runner.runSuite fixtures mode).Ends host before result after →
      ∃ report, result = some report ∧ report.Accounts fixtures) ∧
    ∀ {environment : Environment} {args : List String} {host : Host} {start ready : World}
      {fixturesDir resultsDir : Path} {mode : Mode} {config : Config} {program : String},
      CommandLine.Asks environment args host start (.suite fixturesDir resultsDir mode) config program ready →
      (∃ code after, (CommandLine.run environment args).Ends host start code after) ∧
      ∀ code after, (CommandLine.run environment args).Ends host start code after →
        Judges host ⟨config.colorizer program, resultsDir⟩ mode
          (discoverFixtures fixturesDir config.fixtureExtensions) ready code after ∧
        (mode = .check → host.Reliable →
          (∀ fixtures seen,
            Returns host (discoverFixtures fixturesDir config.fixtureExtensions) ready fixtures seen →
            Independent resultsDir fixtures ready.files) →
          ∃ given, Certifies host ⟨config.colorizer program, resultsDir⟩ fixturesDir config.fixtureExtensions
            ready code after given) := by
  refine ⟨fun host runner fixtures mode before result after ends => runner.accounts_of_ends ends, ?_⟩
  intro environment args host start ready fixturesDir resultsDir mode config program asks
  refine ⟨⟨_, _, Program.ends_run _ host start⟩, fun code after ends => ?_⟩
  have judges := judges_of_ends asks ends
  refine ⟨judges, ?_⟩
  rintro rfl reliable independent
  exact exists_certifies reliable independent judges

/-- The tokenizer is a program that prints its source. -/
def Host.printing : Host where
  tokenize _ := .panicked
  execute files _ args :=
    (files.read ⟨args.getLast?.getD ""⟩).map fun bytes => ⟨.code 0, bytes, .empty⟩
  breakdown? _ := none
  helpers := 0

def tokenOf (scope : String) : Capture := [⟨"a", scope, .ofList []⟩]

def captureFile (scope : String) : FileSystem.Node :=
  .file 0o644 (.ofText ((tokenOf scope).serialize .compact))

/-- Two fixtures, the results of which are given. -/
def tested (results : List (Location × FileSystem.Node)) : FileSystem where
  nodes := [(["test"], .directory 0o755), (["test", "colorize-fixtures"], .directory 0o755),
    (["test", "colorize-fixtures", "x.js"], captureFile "s"),
    (["test", "colorize-fixtures", "y.js"], captureFile "t"),
    (["test", "colorize-results"], .directory 0o755)] ++ results
  working := []

def testedFixtures : List Path := [⟨"test/colorize-fixtures/x.js"⟩, ⟨"test/colorize-fixtures/y.js"⟩]

def printingConfig : Config := { Config.default with tokenizer := ⟨some "cat", []⟩ }

def printingRunner : SnapshotRunner := ⟨printingConfig.colorizer "cat", Config.default.resultsDir⟩

/-- The world after the settings have been looked for in vain. -/
def readied (files : FileSystem) : World :=
  ((((World.start files).withLogs (.error .nowhere)).tick.hears (.noConfigAt projectConfig)).hears
    .noConfig).hears (.usingTokenizer "cat")

/-- Without a file of settings there, a command line comes to its task with the tokenizer that it names. -/
theorem asks_of_read {files : FileSystem} {arguments : CommandLine.Arguments} (helpers : Nat)
    (noSettings : files.stat projectConfig = .error .noEntry) (isRead : CommandLine.read args = .ok arguments)
    (noConfig : arguments.config = none)
    (resolved : arguments.resolve Config.default = .ok (task, printingConfig)) (needed : task ≠ .showConfig) :
    CommandLine.Asks ⟨none, none⟩ args { Host.printing with helpers } (.start files) task printingConfig "cat"
      (readied files) := by
  refine .asks isRead rfl ?_ resolved needed rfl
  have looked : (Routine.stat projectConfig).run { Host.printing with helpers }
      ((World.start files).withLogs (.error .nowhere)) = (some (.error .noEntry), _) :=
    (Routine.run_ask_iff (.stat projectConfig)).mpr (Prod.ext noSettings rfl)
  rw [noConfig]
  change Routine.run _ ((Routine.stat projectConfig >>= _) >>= _) _ = _
  rw [Routine.run_bind, Routine.run_bind, looked]
  rfl

theorem asks_test {files : FileSystem} (noSettings : files.stat projectConfig = .error .noEntry) :
    CommandLine.Asks ⟨none, none⟩ ["test", "--tokenizer", "cat"] .printing (.start files)
      (.suite Config.default.fixturesDir Config.default.resultsDir .check) printingConfig "cat"
      (readied files) :=
  asks_of_read 0 noSettings rfl rfl rfl nofun

/-- The world after the fixtures have been listed. -/
def discovered (files : FileSystem) : World :=
  ((regularFiles testedFixtures).run .printing (readied files).tick.tick).2

theorem returns_tested {results : List (Location × FileSystem.Node)}
    (isThere : (tested results).stat Config.default.fixturesDir = .ok ⟨.directory, rights, size⟩)
    (listed : (tested results).list Config.default.fixturesDir = .ok ["x.js", "y.js"])
    (found : ((regularFiles testedFixtures).run .printing (readied (tested results)).tick.tick).1 =
      some testedFixtures) :
    Returns .printing (discoverFixtures Config.default.fixturesDir []) (readied (tested results))
      testedFixtures (discovered (tested results)) := by
  have sorted : testedFixtures.Pairwise fun one other => one.notAfter other = true := by decide +kernel
  exact returns_discoverFixtures_of_sorted (fun _ => rfl) isThere listed (Prod.ext found rfl) rfl sorted

/-- What the workers make of the fixtures one after another. -/
def gathered (files : FileSystem) : List (Path × Except Failure Outcome) × World :=
  Host.printing.workGroups (printingRunner.run .check) (groups Host.printing.helpers testedFixtures)
    (discovered files)

theorem exists_green {files : FileSystem} (noSettings : files.stat projectConfig = .error .noEntry)
    (returned : Returns .printing (discoverFixtures Config.default.fixturesDir []) (readied files)
      testedFixtures (discovered files))
    (green : SuiteReport.isSuccess ⟨(gathered files).1⟩ = true) :
    ∃ after, (CommandLine.run ⟨none, none⟩ ["test", "--tokenizer", "cat"]).Ends .printing (.start files)
      (some 0) after ∧ after.files = (gathered files).2.files := by
  obtain ⟨left, ends, same⟩ := SnapshotRunner.ends_of_gathers
    (gathers_workGroups .printing (printingRunner.run .check) _ (discovered files))
  have done := Colorizer.ends_suite_iff.mpr (.inr ⟨_, _, returned, _, _, ends, rfl, rfl⟩)
  refine ⟨_, (CommandLine.ends_iff_of_asks (asks_test noSettings)).mpr ⟨_, _, done, ?_, rfl⟩, same⟩
  change _ = some (Errand.exitCode (.ok (SuiteReport.isSuccess ⟨(gathered files).1⟩)))
  rw [green]
  rfl

/-- The first baseline is a link to the second, which holds another capture than either has. -/
def crossed : FileSystem := tested [(["test", "colorize-results", "x_js.json"], .link ⟨"y_js.json"⟩),
  (["test", "colorize-results", "y_js.json"], captureFile "s")]

/-- A run ends well though the first fixture's baseline is not its capture. -/
theorem test_passes_crossed : ∃ after,
    (CommandLine.run ⟨none, none⟩ ["test", "--tokenizer", "cat"]).Ends .printing (.start crossed) (some 0)
      after ∧
    (∃ seen, Returns .printing (discoverFixtures Config.default.fixturesDir []) (readied crossed)
      testedFixtures seen) ∧
    (testedFixtures.Pairwise fun one other =>
      (printingRunner.baselineOf one).same (printingRunner.baselineOf other) = false) ∧
    (∀ one ∈ testedFixtures, ∀ other ∈ testedFixtures, (printingRunner.baselineOf one).same other = false) ∧
    ∃ fixture ∈ testedFixtures, ∃ current,
      ((printingRunner.colorizer.capture fixture).run.run .printing (readied crossed)).1 =
        some (.ok current) ∧
      ¬ after.files.Holds (printingRunner.baselineOf fixture) current := by
  have returned : Returns .printing (discoverFixtures Config.default.fixturesDir []) (readied crossed)
      testedFixtures (discovered crossed) := returns_tested rfl rfl (by decide +kernel)
  obtain ⟨green, readBack⟩ : SuiteReport.isSuccess ⟨(gathered crossed).1⟩ = true ∧
      (gathered crossed).2.files.read (printingRunner.baselineOf ⟨"test/colorize-fixtures/x.js"⟩) =
        .ok ((tokenOf "t").serialize .pretty).toUTF8 := by decide +kernel
  obtain ⟨after, ends, same⟩ := exists_green rfl returned green
  rw [← same] at readBack
  refine ⟨after, ends, ⟨_, returned⟩, by decide +kernel, by decide +kernel, ⟨"test/colorize-fixtures/x.js"⟩,
    List.mem_cons_self, tokenOf "s", eq_some_ok (by decide +kernel), fun held => ?_⟩
  exact absurd (held.unique (FileSystem.holds_of_read readBack)) (by decide)

/-- There is no first baseline, and the second holds other scopes. -/
def drifted : FileSystem := tested [(["test", "colorize-results", "y_js.json"], captureFile "s")]

theorem folder_of_drifted
    (found : (drifted.furnished Config.default.resultsDir).find
      (Path.baselineDirectory Config.default.resultsDir) = .ok (folder, .directory rights)) :
    folder = ["test", "colorize-results"] := by
  have isThere : (drifted.furnished Config.default.resultsDir).find
      (Path.baselineDirectory Config.default.resultsDir) =
        .ok (["test", "colorize-results"], .directory 0o755) := rfl
  cases isThere.symm.trans found
  rfl

theorem independent_drifted : Independent Config.default.resultsDir testedFixtures drifted where
  rooted := (FileSystem.isTree_of_nodes (by decide) (by decide) (by decide)).rooted
  distinct := by decide +kernel
  whole := by
    have made : (drifted.makeDirectories (Path.baselineDirectory Config.default.resultsDir)).1 = .ok () := rfl
    rw [made]
    nofun
  furnished := by
    simp only [testedFixtures, List.forall_mem_cons, List.not_mem_nil, false_implies, implies_true, and_true]
    exact ⟨⟨rfl, rfl⟩, rfl, rfl⟩
  apart := by
    intro folder mode found fixture member path isOwn location visited
    rw [folder_of_drifted found]
    have spared : ∀ fixture ∈ testedFixtures, ∀ path ∈ [fixture, Config.default.resultsDir.baseline fixture],
        ∀ location ∈ (drifted.furnished Config.default.resultsDir).visited path,
          isSpared testedFixtures fixture (drifted.furnished Config.default.resultsDir)
            ["test", "colorize-results"] location = true := by
      decide +kernel
    exact not_taken_of_isSpared (spared fixture member path isOwn location visited)
  way := by
    intro folder mode found fixture member visited
    rw [folder_of_drifted found] at visited
    have aside : ∀ fixture ∈ testedFixtures, ["test", "colorize-results"] ++ [fixture.baselineName] ∉
        (drifted.furnished Config.default.resultsDir).visited
          (Path.baselineDirectory Config.default.resultsDir) := by decide +kernel
    exact absurd visited (aside fixture member)
  nameable := by
    intro _
    unfold FileSystem.Nameable
    decide +kernel

theorem test_certifies_drifted : Host.printing.Reliable ∧
    CommandLine.Asks ⟨none, none⟩ ["test", "--tokenizer", "cat"] .printing (.start drifted)
      (.suite Config.default.fixturesDir Config.default.resultsDir .check) printingConfig "cat"
      (readied drifted) ∧
    (∀ fixtures seen, Returns .printing (discoverFixtures Config.default.fixturesDir [])
      (readied drifted) fixtures seen → Independent Config.default.resultsDir fixtures drifted) ∧
    ∃ (after : World) (given : Path → Option (Except Failure Capture)),
    (CommandLine.run ⟨none, none⟩ ["test", "--tokenizer", "cat"]).Ends .printing
      (.start drifted) (some 0) after ∧
    ∀ fixture ∈ testedFixtures, ∃ current, given fixture = some (.ok current) ∧
      printingRunner.Given .printing drifted fixture (given fixture) ∧
      after.files.Holds (printingRunner.baselineOf fixture) current := by
  have reliable : Host.printing.Reliable := fun _ => rfl
  have asks := @asks_test drifted rfl
  have returned : Returns .printing (discoverFixtures Config.default.fixturesDir []) (readied drifted)
      testedFixtures (discovered drifted) := returns_tested rfl rfl (by decide +kernel)
  have independent : ∀ fixtures seen, Returns .printing (discoverFixtures Config.default.fixturesDir [])
      (readied drifted) fixtures seen → Independent Config.default.resultsDir fixtures drifted := by
    intro fixtures seen returned'
    cases returned.symm.trans returned'
    exact independent_drifted
  obtain ⟨after, ends, -⟩ := exists_green rfl returned (by decide +kernel)
  obtain ⟨given, certifies⟩ := ((test_certifies.2 asks).2 _ _ ends).2 rfl reliable independent
  refine ⟨reliable, asks, independent, after, given, ends, fun fixture member => ?_⟩
  obtain ⟨current, isGiven, -⟩ := (certifies.green_iff.mp rfl).2 _ _ returned fixture member
  have held := certifies.held rfl _ _ returned fixture member current isGiven
  exact ⟨current, isGiven, certifies.isGiven _ _ returned fixture member, held⟩

end Colorization
