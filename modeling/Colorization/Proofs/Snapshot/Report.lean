import Colorization.Proofs.CommandLine.Execution
import Colorization.Proofs.Fixtures
import Colorization.Proofs.Snapshot.Suite

/-! The report of a suite on the fixtures that are discovered, and the exit code that comes of it. -/
namespace Colorization

open Colorization.Action (Returns Fails)

namespace SuiteReport

/-- The report tells of all fixtures in their order, and its numbers and verdict are those of its
entries. -/
structure Accounts (report : SuiteReport) (fixtures : List Path) : Prop where
  listed : report.fixtures.map Prod.fst = fixtures
  total : report.passed + report.failed = fixtures.length
  failed_eq_zero_iff : report.failed = 0 ↔ report.isSuccess = true
  success_iff : report.isSuccess = true ↔ report.failures = []
  sublist : report.failures.Sublist report.fixtures
  mem_failures_iff : ∀ entry, entry ∈ report.failures ↔ entry ∈ report.fixtures ∧ isGood entry.2 = false

theorem isSuccess_iff {report : SuiteReport} :
    report.isSuccess = true ↔ ∀ entry ∈ report.fixtures, isGood entry.2 = true := List.all_eq_true

theorem passed_le (report : SuiteReport) : report.passed ≤ report.fixtures.length := List.countP_le_length

theorem accounts {report : SuiteReport} {fixtures : List Path}
    (listed : report.fixtures.map Prod.fst = fixtures) : report.Accounts fixtures where
  listed := listed
  total := by
    rw [← listed, List.length_map, failed]
    exact Nat.add_sub_cancel' report.passed_le
  failed_eq_zero_iff := by
    rw [isSuccess_iff, failed, Nat.sub_eq_zero_iff_le, ← List.countP_eq_length]
    exact ⟨report.passed_le.antisymm, Eq.ge⟩
  success_iff := by
    rw [isSuccess_iff, failures, List.filter_eq_nil_iff]
    simp
  sublist := List.filter_sublist
  mem_failures_iff entry := by simp [failures]

end SuiteReport

variable {host : Host} {before after : World}

/-- However a suite ends, it ends with a report of all its fixtures. -/
theorem SnapshotRunner.accounts_of_ends {runner : SnapshotRunner} {mode : Mode}
    (ends : (runner.runSuite fixtures mode).Ends host before result after) :
    ∃ report, result = some report ∧ report.Accounts fixtures := by
  obtain ⟨results, middle, gathers, rfl, -⟩ := gathers_of_ends ends
  refine ⟨⟨results⟩, rfl, SuiteReport.accounts ?_⟩
  exact gathers.map_fst.trans (flatten_groups _ fixtures)

section Discovery

variable {directory : Path} {extensions : List String}

theorem still_regularFiles (paths : List Path) : (regularFiles paths).Still := by
  induction paths with
  | nil => trivial
  | cons path rest ih =>
    refine .bind (.bind (Routine.still_ask trivial) fun answer => ?_) fun regular => ?_
    · cases answer <;> trivial
    · exact ih.bind fun others => trivial

theorem still_discoverFixtures (directory : Path) (extensions : List String) :
    (discoverFixtures directory extensions).Still := by
  refine .bind (Action.still_lift (Routine.still_ask trivial)) fun answer => ?_
  split
  · refine .bind (Action.still_on (Routine.still_ask trivial)) fun names => ?_
    exact .bind (Action.still_lift (still_regularFiles _)) fun files => Action.still_pure _
  · exact Action.still_throw _

theorem files_of_discoverFixtures
    (returned : Returns host (discoverFixtures directory extensions) before fixtures after) :
    after.files = before.files := by
  rw [← (still_discoverFixtures directory extensions).files host before]
  exact congrArg (fun ended => World.files ended.2) returned.symm

theorem exists_run_regularFiles (paths : List Path) (host : Host) (before : World) :
    ∃ files after, (regularFiles paths).run host before = (some files, after) := by
  induction paths generalizing before with
  | nil => exact ⟨[], before, rfl⟩
  | cons path rest ih =>
    obtain ⟨regular, looked, ran⟩ : ∃ regular looked,
        (isRegularFile path).run host before = (some regular, looked) := by
      rcases asked : Request.perform host (.stat path) before with ⟨_ | answer, looked⟩
      · exact ⟨_, looked, Routine.run_bind_eq_some_iff.mpr ⟨_, _, (Routine.run_ask_iff _).mpr asked, rfl⟩⟩
      · exact ⟨_, looked, Routine.run_bind_eq_some_iff.mpr ⟨_, _, (Routine.run_ask_iff _).mpr asked, rfl⟩⟩
    obtain ⟨others, after, ran'⟩ := ih looked
    exact ⟨_, after, Routine.run_bind_eq_some_iff.mpr ⟨regular, looked, ran,
      Routine.run_bind_eq_some_iff.mpr ⟨others, after, ran', rfl⟩⟩⟩

theorem isRegular_of_regularFiles {paths files : List Path}
    (ended : (regularFiles paths).run host before = (some files, after)) :
    ∀ path ∈ files, ∃ stat, before.files.stat path = .ok stat ∧ stat.kind = .file := by
  induction paths generalizing before files with
  | nil =>
    cases ended
    exact nofun
  | cons path rest ih =>
    obtain ⟨regular, looked, isFile, ended⟩ := Routine.run_bind_eq_some_iff.mp ended
    obtain ⟨others, seen, found, ended⟩ := Routine.run_bind_eq_some_iff.mp ended
    cases ended
    obtain ⟨answer, asked, stat, isFile⟩ := Routine.run_bind_eq_some_iff.mp isFile
    have stat : before.look host (fun files => files.stat path) = (answer, asked) :=
      (Routine.run_ask_iff (.stat path)).mp stat
    have same : looked.files = before.files := by
      have seen := World.files_of_look stat
      cases answer <;> cases isFile <;> exact seen
    have later : ∀ other ∈ others, ∃ stat, before.files.stat other = .ok stat ∧ stat.kind = .file :=
      same ▸ ih found
    cases regular with
    | false => exact later
    | true =>
      refine List.forall_mem_cons.mpr ⟨?_, later⟩
      cases answer with
      | error => cases isFile
      | ok stat' =>
        refine ⟨stat', (World.look_eq_ok_iff.mp stat).2.1, ?_⟩
        simpa using (Prod.mk.inj isFile).1

/-- Fixtures are regular files. -/
theorem isRegular_of_discoverFixtures
    (returned : Returns host (discoverFixtures directory extensions) before fixtures after) :
    ∀ fixture ∈ fixtures, ∃ stat, before.files.stat fixture = .ok stat ∧ stat.kind = .file := by
  obtain ⟨mode, size, looked, names, listed, files, asked, list, found, rfl⟩ :=
    returns_discoverFixtures.mp returned
  have same : listed.files = before.files :=
    (World.files_of_look list).trans (World.files_of_look asked)
  intro fixture member
  rw [← same]
  exact isRegular_of_regularFiles found fixture
    (List.mem_of_mem_filter (List.mem_mergeSort.mp member))

/-- Where nothing breaks down it is enough that the directory is there. -/
theorem exists_discoverFixtures_iff (reliable : host.Reliable) :
    (∃ fixtures after, Returns host (discoverFixtures directory extensions) before fixtures after) ↔
      before.files.isDirectory directory = true := by
  constructor
  · rintro ⟨fixtures, after, returned⟩
    obtain ⟨mode, size, looked, _, _, _, asked, -⟩ := returns_discoverFixtures.mp returned
    simp [FileSystem.isDirectory, (World.look_eq_ok_iff.mp asked).2.1]
  · intro isThere
    unfold FileSystem.isDirectory at isThere
    split at isThere
    next stat answered =>
      obtain ⟨kind, mode, size⟩ := stat
      obtain rfl : kind = .directory := by simpa using isThere
      obtain ⟨location, rights, found⟩ : ∃ location rights,
          before.files.find directory = .ok (location, .directory rights) := by
        obtain ⟨⟨location, node⟩, found, told⟩ := bind_eq_ok_iff.mp answered
        cases node with
        | directory rights => exact ⟨location, rights, found⟩
        | file | link | device => cases told
      obtain ⟨files, after, ran⟩ := exists_run_regularFiles
        ((before.files.names location).map fun name => directory.join ⟨name⟩) host before.tick.tick
      have asked : before.look host (fun files => files.stat directory) = (_, before.tick) :=
        World.look_eq_ok_iff.mpr ⟨reliable _, answered, rfl⟩
      have list : before.tick.look host (fun files => files.list directory) = (_, before.tick.tick) :=
        World.look_eq_ok_iff.mpr ⟨reliable _, FileSystem.list_of_find found, rfl⟩
      exact ⟨_, after, returns_discoverFixtures.mpr ⟨mode, size, _, _, _, files, asked, list, ran, rfl⟩⟩
    next => cases isThere

/-- Where nothing breaks down the regular files of the right extension are discovered. -/
theorem returns_discoverFixtures_of_sorted {names : List String}
    {files fixtures : List Path} (reliable : host.Reliable)
    (isThere : before.files.stat directory = .ok ⟨.directory, mode, size⟩)
    (listed : before.files.list directory = .ok names)
    (found : (regularFiles (names.map fun name => directory.join ⟨name⟩)).run host before.tick.tick =
      (some files, after))
    (kept : (files.filter fun path => path.hasExtension extensions) = fixtures)
    (sorted : fixtures.Pairwise fun one other => one.notAfter other = true) :
    Returns host (discoverFixtures directory extensions) before fixtures after := by
  have asked : before.look host (fun files => files.stat directory) = (_, before.tick) :=
    World.look_eq_ok_iff.mpr ⟨reliable _, isThere, rfl⟩
  have list : before.tick.look host (fun files => files.list directory) = (_, before.tick.tick) :=
    World.look_eq_ok_iff.mpr ⟨reliable _, listed, rfl⟩
  refine returns_discoverFixtures.mpr ⟨mode, size, _, _, _, files, asked, list, found, ?_⟩
  rw [kept, List.mergeSort_of_pairwise sorted]

end Discovery

/-- The number of exports is told before they are made. -/
def World.announced (world : World) (mode : Mode) (count : Nat) : World :=
  if mode = .export then world.hears (.exporting count) else world

@[simp] theorem World.files_announced (world : World) (mode : Mode) (count : Nat) :
    (world.announced mode count).files = world.files := by
  unfold announced
  split <;> rfl

/-- A suite ends well exactly if its fixtures are discovered and its report says so. -/
theorem Colorizer.ends_suite_iff {colorizer : Colorizer} {fixturesDir resultsDir : Path} {mode : Mode}
    {extensions : List String} :
    (colorizer.carryOut extensions (.suite fixturesDir resultsDir mode)).run.Ends host before ended after ↔
      (∃ failure, Fails host (discoverFixtures fixturesDir extensions) before failure after ∧
        ended = failure.map fun failure => .error (.work none failure)) ∨
      ∃ fixtures seen, Returns host (discoverFixtures fixturesDir extensions) before fixtures seen ∧
        ∃ report left, ((⟨colorizer, resultsDir⟩ : SnapshotRunner).runSuite fixtures mode).Ends host
          (seen.announced mode fixtures.length) (some report) left ∧
        ended = some (.ok report.isSuccess) ∧ after = left.shows .output (report.text mode) := by
  have reported : ∀ fixtures seen, ((do
      let report ← (SnapshotRunner.runSuite ⟨colorizer, resultsDir⟩ fixtures mode : Program _)
      Errand.perform (Routine.print (report.text mode))
      return report.isSuccess) : Errand Bool).run.Ends host seen ended after ↔
        ∃ report left, ((⟨colorizer, resultsDir⟩ : SnapshotRunner).runSuite fixtures mode).Ends host
          seen (some report) left ∧
        ended = some (.ok report.isSuccess) ∧ after = left.shows .output (report.text mode) := by
    intro fixtures seen
    rw [Program.ends_lift_bind_iff]
    constructor
    · rintro (⟨report, left, ends, rest⟩ | ⟨-, ends⟩)
      · have rest := (Errand.ends_perform_bind_iff rfl).mp rest
        obtain ⟨rfl, rfl⟩ := Program.ends_done_iff.mp rest
        exact ⟨report, left, ends, rfl, rfl⟩
      · obtain ⟨report, ⟨⟩, -⟩ := SnapshotRunner.accounts_of_ends ends
    · rintro ⟨report, left, ends, rfl, rfl⟩
      exact .inl ⟨report, left, ends, (Errand.ends_perform_bind_iff rfl).mpr .done⟩
  refine Errand.ends_during_bind_iff.trans (or_congr .rfl ?_)
  refine exists_congr fun fixtures => exists_congr fun seen => and_congr_right fun _ => ?_
  rw [World.announced]
  split
  · exact (Errand.ends_perform_bind_iff rfl).trans (reported fixtures _)
  · exact reported fixtures seen

end Colorization
