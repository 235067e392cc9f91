import Colorization.Proofs.FileSystem.Spelling
import Colorization.Proofs.Routine.Abreast
import Colorization.Proofs.Routine.Ends
import Colorization.Proofs.Snapshot.Report

/-! Capturing the fixtures of a directory and exporting them come to the same: what the one can leave,
and tell of each fixture, the other can. -/
namespace Colorization

open Colorization.Action (Returns Fails)
open Routine (Abreast Unaware)

section Making

variable {files : FileSystem} {results : Path}

/-- The directory that is made is that of the baselines. -/
theorem unmade_of_created (nested : files.Nested) (created : (files.makeDirectories results).1 = .ok ()) :
    (files.makeDirectories results).2 = files ∨
      Unmade results.baselineDirectory files (files.makeDirectories results).2 := by
  by_cases empty : results.route = []
  · exact .inl (FileSystem.makeDirectories_of_route empty)
  · have after : results.SilentAfter results.baselineDirectory :=
      Path.silentAfter_directory_join Path.plain_json empty
    have makes : files.makeDirectories results.baselineDirectory =
        (.ok (), (files.makeDirectories results).2) :=
      (FileSystem.makeDirectories_of_silentAfter nested after created).trans (Prod.ext created rfl)
    obtain ⟨folder, mode, found⟩ := FileSystem.find_of_makeDirectories after.text_ne (by rw [makes])
    rw [makes] at found
    exact .inr ⟨makes, FileSystem.makeDirectories_of_find found⟩

end Making

section Workers

variable {host : Host} {results fixture directory : Path} {files made : FileSystem}

theorem Action.unaware_bind {action : Action α} {next : α → Action β}
    (unaware : action.run.Unaware host directory files made)
    (onward : ∀ value, (next value).run.Unaware host directory files made) :
    (action >>= next).run.Unaware host directory files made := by
  rw [ExceptT.run_bind]
  refine unaware.bind fun ended => ?_
  cases ended with
  | error failure => exact .done
  | ok value => exact onward value

theorem Action.unaware_request (request : Request) (still : request.Still)
    (alike : ∀ world world' : World, world.files ∈ [files, made] → world'.files ∈ [files, made] →
      (request.perform host world).1 = (request.perform host world').1) :
    (liftM (Routine.ask request) : Action request.Answer).run.Unaware host directory files made :=
  .look still alike fun _ => .done

section Capture

variable (reliable : host.Reliable) (same : made.find fixture = files.find fixture)

include same

theorem find_of_either {one : FileSystem} (either : one ∈ [files, made]) :
    one.find fixture = files.find fixture := by
  rcases List.mem_pair.mp either with rfl | rfl
  · rfl
  · exact same

include reliable

theorem unaware_validateSource : (validateSource fixture).run.Unaware host directory files made := by
  refine Action.unaware_bind (Action.unaware_request (.stat fixture) trivial ?_) fun answer => ?_
  · intro world world' either either'
    refine (reliable.look world _).trans (Eq.trans ?_ (reliable.look world' _).symm)
    exact FileSystem.stat_congr ((find_of_either same either).trans (find_of_either same either').symm)
  cases answer with
  | error => exact .done
  | ok stat =>
    simp only
    split
    · exact .done
    split
    · exact .done
    refine Action.unaware_bind (Action.unaware_request (.openFile fixture) trivial ?_) fun answer => ?_
    · intro world world' either either'
      refine (reliable.look world _).trans (Eq.trans ?_ (reliable.look world' _).symm)
      rw [find_of_either same either, find_of_either same either']
    cases answer <;> exact .done

omit reliable in
theorem unaware_tokens (faithful : host.Faithful) (tokenizer : Tokenizer) :
    (tokenizer.tokens fixture).run.Unaware host directory files made := by
  cases tokenizer with
  | inProcess =>
    refine Action.unaware_bind (Action.unaware_request (.tokenize fixture) trivial ?_) fun answer => ?_
    · exact fun _ _ _ _ => rfl
    cases answer with
    | tokens | failed => exact .done
    | panicked => exact .panic
  | command program args =>
    refine Action.unaware_bind (Action.unaware_request (.tell _) trivial fun _ _ _ _ => rfl) fun _ => ?_
    refine Action.unaware_bind
      (Action.unaware_request (.execute program (args ++ [fixture.text])) trivial ?_) fun answer => ?_
    · intro world world' either either'
      exact faithful _ _ _ _ _ ((find_of_either same either).trans (find_of_either same either').symm)
    cases answer with
    | error => exact .done
    | ok finished =>
      dsimp only
      cases finished.capture <;> exact .done

theorem unaware_capture (faithful : host.Faithful) (colorizer : Colorizer) :
    (colorizer.capture fixture).run.Unaware host directory files made := by
  refine Action.unaware_bind (unaware_validateSource reliable same) fun _ => ?_
  exact Action.unaware_bind (unaware_tokens same faithful _) fun _ => .done

/-- The first change that is asked for is to make the directory. -/
theorem unaware_captureInto (faithful : host.Faithful) (named : ∃ name, fixture.fileName? = some name)
    (colorizer : Colorizer) :
    (colorizer.captureInto (some results) fixture).run.Unaware host results.baselineDirectory files made := by
  obtain ⟨name, named⟩ := named
  refine Action.unaware_bind (unaware_capture reliable same faithful colorizer) fun current => ?_
  rw [← Path.directory_baseline named]
  exact .make

theorem unaware_export (faithful : host.Faithful) (named : ∃ name, fixture.fileName? = some name)
    (runner : SnapshotRunner) :
    (runner.run .export fixture).run.Unaware host runner.resultsDir.baselineDirectory files made := by
  obtain ⟨name, named⟩ := named
  refine Action.unaware_bind (unaware_capture reliable same faithful runner.colorizer) fun current => ?_
  rw [← Path.directory_baseline named]
  exact .make

end Capture

/-- What comes of an export, given what comes of the capture into the directory of the same fixture. -/
def Exports (captured : Except Failure Capture) (exported : Except Failure Outcome) : Prop :=
  exported = captured.map fun _ => .exported

theorem exports_error (failure : Failure) : Exports (.error failure) (.error failure) := rfl

theorem Action.abreast_bind {R : Except Failure β → Except Failure γ → Prop}
    (failures : ∀ failure, R (.error failure) (.error failure)) (action : Action α) {next : α → Action β}
    {next' : α → Action γ} (onward : ∀ value, Abreast R (next value).run (next' value).run) :
    Abreast R (action >>= next).run (action >>= next').run := by
  have alike : Abreast Eq action.run action.run := .refl (fun _ => rfl) _
  rw [ExceptT.run_bind, ExceptT.run_bind]
  refine alike.bind ?_
  rintro (failure | value) _ rfl
  · exact .done (failures failure)
  · exact onward value

/-- An export does what a capture into the directory does, and tells of it. -/
theorem abreast_export (runner : SnapshotRunner) (fixture : Path) :
    Abreast Exports (runner.colorizer.captureInto (some runner.resultsDir) fixture).run
      (runner.run .export fixture).run := by
  refine Action.abreast_bind exports_error _ fun current => ?_
  dsimp only [SnapshotRunner.write]
  rw [bind_assoc]
  exact Action.abreast_bind exports_error _ fun _ => .tell' (.done rfl)

end Workers

namespace FileSystem

/-- The regular files are the same, with their modes and bytes. -/
def SameFiles (one other : FileSystem) : Prop :=
  ∀ location mode content,
    one.node? location = some (.file mode content) ↔ other.node? location = some (.file mode content)

theorem SameFiles.symm {one other : FileSystem} (same : SameFiles one other) : SameFiles other one :=
  fun location mode content => (same location mode content).symm

theorem sameFiles_of_nearly {directory : Path} {files made one other : FileSystem}
    (nearly : Nearly directory files made one other) : SameFiles one other := by
  intro location mode content
  cases nearly with
  | same same => rw [same]
  | early unmade isOne isOther =>
    have grows : Grows files made := by
      have grown := grows_makeDirectories files directory
      rwa [unmade.makes] at grown
    have each : ∀ {files' : FileSystem}, files' ∈ [files, made] →
        (files'.node? location = some (.file mode content) ↔
          files.node? location = some (.file mode content)) := by
      intro files' either
      rcases List.mem_pair.mp either with rfl | rfl
      · rfl
      · exact grows.node_iff nofun
    exact (each isOne).trans (each isOther).symm

end FileSystem

/-- The reports tell of the same captures and the same failures. -/
structure BatchReport.Agrees (batch : BatchReport) (suite : SuiteReport) : Prop where
  captured_iff : ∀ fixture, fixture ∈ batch.captured.map Prod.fst ↔ (fixture, .ok .exported) ∈ suite.fixtures
  failures : suite.failures = batch.failures.map fun entry => (entry.1, .error entry.2)

section Reports

variable {entries : List (Path × Except Failure Capture)} {results : Path}

def exportedEntry (entry : Path × Except Failure Capture) : Path × Except Failure Outcome :=
  (entry.1, entry.2.map fun _ => .exported)

theorem eq_map_of_paired {exports : List (Path × Except Failure Outcome)}
    (paired : List.Forall₂ (Paired Exports) entries exports) : exports = entries.map exportedEntry := by
  induction paired with
  | nil => rfl
  | cons related _ ih => rw [List.map_cons, ← ih, exportedEntry, ← related.2, related.1]

theorem failures_of_ofResults (entries : List (Path × Except Failure Capture)) :
    SuiteReport.failures ⟨entries.map exportedEntry⟩ =
      (BatchReport.ofResults entries).failures.map fun entry => (entry.1, .error entry.2) := by
  induction entries using List.reverseRecOn with
  | nil => rfl
  | append_singleton entries last ih =>
    obtain ⟨path, failure | capture⟩ := last
    all_goals
      rw [BatchReport.ofResults_concat]
      simp [BatchReport.add, SuiteReport.failures, exportedEntry, isGood, Except.map,
        Outcome.isSuccess] at ih ⊢
      exact ih

theorem mem_captured_iff (apart : entries.Pairwise fun one other => ∀ capture capture',
      one.2 = .ok capture → other.2 = .ok capture' → other.1.same one.1 = false) (fixture : Path) :
    fixture ∈ (BatchReport.ofResults entries).captured.map Prod.fst ↔
      (fixture, .ok .exported) ∈ entries.map exportedEntry := by
  constructor
  · intro member
    obtain ⟨entry, inside, rfl⟩ := List.mem_map.mp member
    obtain ⟨capture, there⟩ := BatchReport.mem_captured inside
    exact List.mem_map.mpr ⟨_, there, rfl⟩
  · intro member
    obtain ⟨⟨path, failure | capture⟩, inside, same⟩ := List.mem_map.mp member
    · cases same
    · cases same
      have there := (BatchReport.lookup_captured apart).mpr inside
      exact List.mem_map.mpr ⟨_, Captures.mem_of_lookup there, rfl⟩

theorem agrees_of_entries (named : ∀ entry ∈ entries, ∃ name, entry.1.fileName? = some name)
    (distinct : (entries.map Prod.fst).Pairwise fun one other =>
      (results.baseline one).same (results.baseline other) = false) :
    (BatchReport.ofResults entries).Agrees ⟨entries.map exportedEntry⟩ := by
  refine ⟨mem_captured_iff ?_, failures_of_ofResults entries⟩
  refine (List.pairwise_map.mp distinct).imp_of_mem fun {one other} member member' apart _ _ _ _ => ?_
  obtain ⟨name, isName⟩ := named one member
  obtain ⟨name', isName'⟩ := named other member'
  by_contra alike
  have names := Path.fileName?_of_same (Bool.eq_true_of_not_eq_false alike)
  have same : one.1.baselineName = other.1.baselineName := by
    rw [isName, isName', Option.some.injEq] at names
    rw [Path.baselineName_eq isName, Path.baselineName_eq isName', names]
  rw [Path.baseline_same_of_name isName isName' same] at apart
  cases apart

end Reports

section Ends

variable {host : Host} {before before' after : World} {runner : SnapshotRunner} {fixtures : List Path}
  {files : FileSystem} (reliable : host.Reliable) (faithful : host.Faithful) (rooted : files.Rooted)
  (created : (files.makeDirectories runner.resultsDir).1 = .ok ())
  (regular : ∀ fixture ∈ fixtures, ∃ stat, files.stat fixture = .ok stat ∧ stat.kind = .file)

theorem nearly_of_created (nested : files.Nested)
    (created : (files.makeDirectories runner.resultsDir).1 = .ok ()) :
    Nearly runner.resultsDir.baselineDirectory files (files.makeDirectories runner.resultsDir).2
      (files.makeDirectories runner.resultsDir).2 files := by
  rcases unmade_of_created nested created with same | unmade
  · exact .same same
  · exact .early unmade (by simp) (by simp)

include reliable faithful rooted regular

theorem unaware_of_regular (member : fixture ∈ fixtures) :
    (runner.colorizer.captureInto (some runner.resultsDir) fixture).run.Unaware host
        runner.resultsDir.baselineDirectory files (files.makeDirectories runner.resultsDir).2 ∧
      (runner.run .export fixture).run.Unaware host runner.resultsDir.baselineDirectory files
        (files.makeDirectories runner.resultsDir).2 := by
  obtain ⟨stat, answered, isFile⟩ := regular fixture member
  have named := FileSystem.named_of_stat rooted.nested answered (by rw [isFile]; nofun)
  obtain ⟨⟨location, node⟩, found, -⟩ := bind_eq_ok_iff.mp answered
  have same : (files.makeDirectories runner.resultsDir).2.find fixture = files.find fixture :=
    (FileSystem.find_of_extends (FileSystem.extends_makeDirectories files _) found).trans found.symm
  exact ⟨unaware_captureInto reliable same faithful named runner.colorizer,
    unaware_export reliable same faithful named runner⟩

include created

/-- What a batch can come to a suite can come to. -/
theorem gathers_export_of_captureInto
    (gathers : host.Gathers (runner.colorizer.captureInto (some runner.resultsDir))
      (groups host.helpers fixtures) before entries after)
    (start : before.files = (files.makeDirectories runner.resultsDir).2) (start' : before'.files = files) :
    ∃ after', host.Gathers (runner.run .export) (groups host.helpers fixtures) before'
      (entries.map exportedEntry) after' ∧ after.files.SameFiles after'.files := by
  have nearly : Nearly runner.resultsDir.baselineDirectory files (files.makeDirectories runner.resultsDir).2
      before.files before'.files := by
    rw [start, start']
    exact nearly_of_created rooted.nested created
  obtain ⟨exports, after', gathers', paired, nearly⟩ := gathers.abreast reliable exports_error
    (fun fixture _ => abreast_export runner fixture)
    (fun fixture member => unaware_of_regular reliable faithful rooted regular
      (flatten_groups host.helpers fixtures ▸ member)) nearly
  cases eq_map_of_paired paired
  exact ⟨after', gathers', FileSystem.sameFiles_of_nearly nearly⟩

/-- What a suite can come to a batch can come to. -/
theorem gathers_captureInto_of_export
    (gathers : host.Gathers (runner.run .export) (groups host.helpers fixtures) before exports after)
    (start : before.files = files) (start' : before'.files = (files.makeDirectories runner.resultsDir).2) :
    ∃ entries after', host.Gathers (runner.colorizer.captureInto (some runner.resultsDir))
        (groups host.helpers fixtures) before' entries after' ∧
      exports = entries.map exportedEntry ∧ after.files.SameFiles after'.files := by
  have nearly : Nearly runner.resultsDir.baselineDirectory files (files.makeDirectories runner.resultsDir).2
      before.files before'.files := by
    rw [start, start']
    exact (nearly_of_created rooted.nested created).symm
  obtain ⟨entries, after', gathers', paired, nearly⟩ := gathers.abreast
    (R := fun exported captured => Exports captured exported) reliable exports_error
    (fun fixture _ => (abreast_export runner fixture).symm)
    (fun fixture member => (unaware_of_regular reliable faithful rooted regular
      (flatten_groups host.helpers fixtures ▸ member)).symm) nearly
  have paired : List.Forall₂ (Paired Exports) entries exports :=
    paired.flip.imp fun _ _ related => ⟨related.1.symm, related.2⟩
  exact ⟨entries, after', gathers', eq_map_of_paired paired, FileSystem.sameFiles_of_nearly nearly⟩

end Ends

/-- A batch and a suite have ended with reports that agree, and left the same regular files. -/
inductive EndAlike :
    Option (Except Failure BatchReport) → FileSystem → Option SuiteReport → FileSystem → Prop where
  | alike : batch.Agrees suite → files.SameFiles left → EndAlike (some (.ok batch)) files (some suite) left

/-- The batch that captures the fixtures into the directory of the runner's results. -/
def SnapshotRunner.batch (runner : SnapshotRunner) (fixturesDir : Path) (extensions : List String) :
    Undertaking BatchReport :=
  runner.colorizer.captureFixtures fixturesDir runner.resultsDir extensions

section Fixtures

variable {host : Host} {before seen after left : World} {runner : SnapshotRunner} {fixturesDir : Path}
  {extensions : List String} {fixtures : List Path}

theorem ends_captureFixtures_of_returns {colorizer : Colorizer} {results : Path}
    (returned : Returns host (discoverFixtures fixturesDir extensions) before fixtures seen) :
    (colorizer.captureFixtures fixturesDir results extensions).run.Ends host before result after ↔
      (colorizer.captureMany fixtures (some results)).run.Ends host
        (seen.hears (.colorizing fixtures.length fixturesDir)) result after := by
  have told : (Routine.tell (.colorizing fixtures.length fixturesDir)).run host seen =
      (some (), seen.hears (.colorizing fixtures.length fixturesDir)) := rfl
  refine (Program.ends_act_of_run returned).trans ?_
  simp only [Program.bind, ExceptT.bindCont]
  exact Program.ends_act_of_run told

theorem ends_captureFixtures_of_fails {colorizer : Colorizer} {results : Path} {failure : Option Failure}
    (fails : Fails host (discoverFixtures fixturesDir extensions) before failure seen)
    (ends : (colorizer.captureFixtures fixturesDir results extensions).run.Ends host before result after) :
    result = failure.map .error ∧ after = seen := by
  rcases Program.ends_act_iff.mp ends with ⟨ended, middle, ran, rest⟩ | ⟨rfl, ran⟩
  · cases failure <;> cases fails.symm.trans ran
    obtain ⟨rfl, rfl⟩ := Program.ends_done_iff.mp rest
    exact ⟨rfl, rfl⟩
  · cases failure <;> cases fails.symm.trans ran
    exact ⟨rfl, rfl⟩

/-- Suites of independent fixtures come to one end. -/
theorem suite_unique (reliable : host.Reliable) (faithful : host.Faithful) {before' : World}
    (independent : Independent runner.resultsDir fixtures before.files) (same : before'.files = before.files)
    (ends : (runner.runSuite fixtures mode).Ends host before result after)
    (ends' : (runner.runSuite fixtures mode).Ends host before' result' left) :
    result' = result ∧ ∀ location, left.files.node? location = after.files.node? location := by
  have settled := fun fixture (member : fixture ∈ fixtures) =>
    independent.settled_run_of_faithful member reliable faithful runner rfl mode
  choose! ended hand _ keeps using settled
  obtain ⟨rfl, hands, inv, isHand⟩ :=
    SnapshotRunner.hands_of_ends keeps (fun _ => id) independent.nodup rfl ends
  obtain ⟨rfl, hands', inv', isHand'⟩ :=
    SnapshotRunner.hands_of_ends keeps (fun _ => id) independent.nodup same ends'
  have alike : hands' = hands := funext fun fixture => (isHand' fixture).trans (isHand fixture).symm
  exact ⟨rfl, Independent.node?_of_hands (alike ▸ inv') inv⟩

theorem exists_prepared (reliable : host.Reliable) {directory : Path}
    (created : (before.files.makeDirectories directory).1 = .ok ()) (paths : List Path) :
    ∃ prepared, Returns host (Colorizer.prepare paths (some directory)) before () prepared ∧
      prepared.files = (before.files.makeDirectories directory).2 := by
  have performed : Request.perform host (.makeDirectories directory) before =
      (.ok (), { before.tick with files := (before.files.makeDirectories directory).2 }) := by
    simp only [Request.perform, World.makeDirectories, reliable before.clock, ← created]
    rfl
  exact Colorizer.returns_prepare paths ((Routine.run_ask_iff (.makeDirectories directory)).mpr performed)

/-- A batch into a directory that is there or can be made, and the suite that exports the same fixtures into
it: each can end as the other can, and where the fixtures have nothing to do with each other
on disk, however the one ends, so does the other. -/
theorem bulk_writes_agree (reliable : host.Reliable) (faithful : host.Faithful) (rooted : before.files.Rooted)
    (created : (before.files.makeDirectories runner.resultsDir).1 = .ok ()) :
    (∀ failure seen, Fails host (discoverFixtures fixturesDir extensions) before failure seen →
      ∀ result after, (runner.batch fixturesDir extensions).run.Ends host before result after →
        result = failure.map .error ∧ after.files = before.files) ∧
    ∀ fixtures seen, Returns host (discoverFixtures fixturesDir extensions) before fixtures seen →
      (fixtures.Pairwise fun one other => (runner.baselineOf one).same (runner.baselineOf other) = false) →
      (∃ result after, (runner.batch fixturesDir extensions).run.Ends host before result after) ∧
      (∀ result after, (runner.batch fixturesDir extensions).run.Ends host before result after →
        ∃ result' left, (runner.runSuite fixtures .export).Ends host seen result' left ∧
          EndAlike result after.files result' left.files) ∧
      (∀ result' left, (runner.runSuite fixtures .export).Ends host seen result' left →
        ∃ result after, (runner.batch fixturesDir extensions).run.Ends host before result after ∧
          EndAlike result after.files result' left.files) ∧
      (Independent runner.resultsDir fixtures before.files → ∀ result after result' left,
        (runner.batch fixturesDir extensions).run.Ends host before result after →
        (runner.runSuite fixtures .export).Ends host seen result' left →
        EndAlike result after.files result' left.files) := by
  refine ⟨fun failure seen fails result after ends => ?_, fun fixtures seen returned distinct => ?_⟩
  · obtain ⟨rfl, rfl⟩ := ends_captureFixtures_of_fails fails ends
    refine ⟨rfl, ?_⟩
    rw [← (still_discoverFixtures fixturesDir extensions).files host before]
    exact congrArg (fun ended => World.files ended.2) fails.symm
  have unchanged := files_of_discoverFixtures returned
  have regular := isRegular_of_discoverFixtures returned
  have named : ∀ fixture ∈ fixtures, ∃ name, fixture.fileName? = some name := by
    intro fixture member
    obtain ⟨stat, answered, isFile⟩ := regular fixture member
    exact FileSystem.named_of_stat rooted.nested answered (by rw [isFile]; nofun)
  have listed : ∀ {α : Type} {work : Path → Action α} {start entries stop},
      host.Gathers work (groups host.helpers fixtures) start entries stop → entries.map Prod.fst = fixtures :=
    fun gathers => gathers.map_fst.trans (flatten_groups host.helpers fixtures)
  have agrees : ∀ {entries : List (Path × Except Failure Capture)}, entries.map Prod.fst = fixtures →
      (BatchReport.ofResults entries).Agrees ⟨entries.map exportedEntry⟩ := by
    intro entries same
    refine agrees_of_entries (fun entry member => named _ ?_) (same ▸ distinct)
    rw [← same]
    exact List.mem_map_of_mem member
  obtain ⟨prepared, ready, made⟩ : ∃ prepared,
      Returns host (Colorizer.prepare fixtures (some runner.resultsDir))
        (seen.hears (.colorizing fixtures.length fixturesDir)) () prepared ∧
      prepared.files = (before.files.makeDirectories runner.resultsDir).2 := by
    have told : (seen.hears (.colorizing fixtures.length fixturesDir)).files = before.files := unchanged
    rw [← told] at created ⊢
    exact exists_prepared reliable created fixtures
  have forth : ∀ result after, (runner.batch fixturesDir extensions).run.Ends host before result after →
      ∃ result' left, (runner.runSuite fixtures .export).Ends host seen result' left ∧
        EndAlike result after.files result' left.files := by
    intro result after ends
    obtain ⟨entries, gathered, gathers, rfl, left⟩ :=
      Colorizer.gathers_of_captureMany ready ((ends_captureFixtures_of_returns returned).mp ends)
    obtain ⟨stopped, gathers', same⟩ := gathers_export_of_captureInto reliable faithful rooted created regular
      gathers made unchanged
    obtain ⟨after', ends', left'⟩ := SnapshotRunner.ends_of_gathers gathers'
    exact ⟨_, after', ends', .alike (agrees (listed gathers)) (left ▸ left' ▸ same)⟩
  refine ⟨⟨_, _, Program.ends_run _ host before⟩, forth, fun result' left ends => ?_,
    fun independent result after result' left ends ends' => ?_⟩
  · obtain ⟨exports, middle, gathers, rfl, stopped⟩ := SnapshotRunner.gathers_of_ends ends
    obtain ⟨entries, after', gathers', rfl, same⟩ := gathers_captureInto_of_export reliable faithful rooted
      created regular gathers unchanged made
    obtain ⟨after, ends', left'⟩ := Colorizer.captureMany_of_gathers ready gathers'
    refine ⟨_, after, (ends_captureFixtures_of_returns returned).mpr ends', ?_⟩
    exact .alike (agrees (listed gathers')) (left' ▸ stopped ▸ same.symm)
  · obtain ⟨result'', left'', ends'', alike⟩ := forth result after ends
    obtain ⟨rfl, nodes⟩ := suite_unique reliable faithful (unchanged.symm ▸ independent) rfl ends'' ends'
    cases alike with
    | alike agrees same =>
      refine .alike agrees fun location mode content => ?_
      rw [nodes location]
      exact same location mode content

end Fixtures

section Single

open SnapshotRunner (knowing plain oneTheme)

/-- A directory with one source. -/
def single : FileSystem where
  nodes := [(["f"], .directory 0o755), (["f", "x.js"], .file 0o644 (.ofBytes .empty))]
  working := []

def singleHost : Host := knowing ⟨"f/x.js"⟩ oneTheme

theorem returns_single : Returns singleHost (discoverFixtures ⟨"f"⟩ []) (.start single) [⟨"f/x.js"⟩]
    ((regularFiles [⟨"f/x.js"⟩]).run singleHost (World.start single).tick.tick).2 := by
  have isThere : single.stat ⟨"f"⟩ = .ok ⟨.directory, 0o755, 0⟩ := rfl
  have listed : single.list ⟨"f"⟩ = .ok ["x.js"] := rfl
  exact returns_discoverFixtures_of_sorted (fun _ => rfl) isThere listed rfl rfl (by simp)

theorem bulk_writes_agree_single : singleHost.Reliable ∧ singleHost.Faithful ∧ single.Rooted ∧
    (single.makeDirectories ⟨"out/"⟩).1 = .ok () ∧
    ∃ seen, Returns singleHost (discoverFixtures ⟨"f"⟩ []) (.start single) [⟨"f/x.js"⟩] seen ∧
    ∃ result after result' left,
      ((plain ⟨"out/"⟩).batch ⟨"f"⟩ []).run.Ends singleHost (.start single) result after ∧
      ((plain ⟨"out/"⟩).runSuite [⟨"f/x.js"⟩] .export).Ends singleHost seen result' left ∧
      EndAlike result after.files result' left.files := by
  have reliable : singleHost.Reliable := fun _ => rfl
  have faithful : singleHost.Faithful := fun _ _ _ _ _ _ => rfl
  have rooted : (World.start single).files.Rooted :=
    (FileSystem.isTree_of_nodes (by decide) (by decide) (by decide)).rooted
  have created : ((World.start single).files.makeDirectories (plain ⟨"out/"⟩).resultsDir).1 = .ok () := rfl
  obtain ⟨⟨result, after, ends⟩, forth, -⟩ :=
    (bulk_writes_agree reliable faithful rooted created).2 _ _ returns_single (by simp)
  obtain ⟨result', left, ends', alike⟩ := forth result after ends
  exact ⟨reliable, faithful, rooted, created, _, returns_single, result, after, result', left, ends, ends', alike⟩

/-- The one source is read through the place of the other's baseline. -/
def entangled : FileSystem where
  nodes := [(["f"], .directory 0o755), (["f", "x.js"], .link ⟨"../out/y_js.json/p"⟩),
    (["f", "y.js"], .file 0o644 (.ofBytes .empty)), (["out"], .directory 0o755),
    (["out", "y_js.json"], .link ⟨"../q"⟩), (["q"], .directory 0o755),
    (["q", "p"], .file 0o644 (.ofBytes .empty))]
  working := []

/-- Two workers at a time, with the same tokens for all they read. -/
def entangledHost : Host := { Host.quiet oneTheme with helpers := 1 }

def entangledFixtures : List Path := [⟨"f/x.js"⟩, ⟨"f/y.js"⟩]

def entangledSeen : World :=
  ((regularFiles entangledFixtures).run entangledHost (World.start entangled).tick.tick).2

theorem returns_entangled : Returns entangledHost (discoverFixtures ⟨"f"⟩ []) (.start entangled)
    entangledFixtures entangledSeen := by
  have isThere : (World.start entangled).files.stat ⟨"f"⟩ = .ok ⟨.directory, 0o755, 0⟩ := rfl
  have listed : (World.start entangled).files.list ⟨"f"⟩ = .ok ["x.js", "y.js"] := by decide +kernel
  have joined : (["x.js", "y.js"].map fun name => Path.join ⟨"f"⟩ ⟨name⟩) = entangledFixtures := rfl
  have found : ((regularFiles entangledFixtures).run entangledHost (World.start entangled).tick.tick).1 =
      some entangledFixtures := by decide +kernel
  have ran : (regularFiles (["x.js", "y.js"].map fun name => Path.join ⟨"f"⟩ ⟨name⟩)).run entangledHost
      (World.start entangled).tick.tick = (some entangledFixtures, entangledSeen) := by
    rw [joined]
    exact Prod.ext found (by rw [entangledSeen])
  have kept : (entangledFixtures.filter fun path => path.hasExtension []) = entangledFixtures := rfl
  have sorted : entangledFixtures.Pairwise fun one other => one.notAfter other = true := by decide +kernel
  exact returns_discoverFixtures_of_sorted (fun _ => rfl) isThere listed ran kept sorted

/-- The world in which the workers of the batch begin. -/
def entangledReady : World :=
  ((Colorizer.prepare entangledFixtures (some ⟨"out"⟩)).run.run entangledHost
    (entangledSeen.hears (.colorizing 2 ⟨"f"⟩))).2

/-- A directory that is there once the suite has made it cannot be made by the batch, as it is spelled.
And where the one source is read through the place of the other's baseline, it is captured only if its
worker is the first: so it is in this batch, but not in this suite. -/
theorem bulk_writes_differ :
    (∃ seen, Returns singleHost (discoverFixtures ⟨"f"⟩ []) (.start single) [⟨"f/x.js"⟩] seen ∧
      (∃ after, ((plain ⟨"out/."⟩).batch ⟨"f"⟩ []).run.Ends singleHost (.start single)
        (some (.error (.system ⟨"out/."⟩ .noEntry))) after ∧ after.files = single) ∧
      ∃ suite left, ((plain ⟨"out/."⟩).runSuite [⟨"f/x.js"⟩] .export).Ends singleHost seen (some suite) left ∧
        suite.fixtures.map (fun entry => (entry.1, entry.2.toOption)) = [(⟨"f/x.js"⟩, some .exported)] ∧
        left.files.isDirectory ⟨"out/."⟩ = true) ∧
    Returns entangledHost (discoverFixtures ⟨"f"⟩ []) (.start entangled) entangledFixtures entangledSeen ∧
    (entangledFixtures.Pairwise fun one other =>
      ((plain ⟨"out"⟩).baselineOf one).same ((plain ⟨"out"⟩).baselineOf other) = false) ∧
    (∀ one ∈ entangledFixtures, ∀ other ∈ entangledFixtures,
      ((plain ⟨"out"⟩).baselineOf one).same other = false) ∧
    (∃ report after, ((plain ⟨"out"⟩).batch ⟨"f"⟩ []).run.Ends entangledHost (.start entangled)
        (some (.ok report)) after ∧
      report.failures.map Prod.fst = [] ∧
      (after.files.stat ⟨"out/x_js.json"⟩).map Stat.kind = .ok .file) ∧
    ∃ suite left, ((plain ⟨"out"⟩).runSuite entangledFixtures .export).Ends entangledHost entangledSeen
        (some suite) left ∧
      suite.failures.map Prod.fst = [⟨"f/x.js"⟩] ∧
      (left.files.stat ⟨"out/x_js.json"⟩).map Stat.kind = .error .noEntry := by
  have one : [[(⟨"f/x.js"⟩ : Path)]] = groups singleHost.helpers [⟨"f/x.js"⟩] := by simp [groups]
  have both : [[⟨"f/x.js"⟩, ⟨"f/y.js"⟩]] = groups entangledHost.helpers entangledFixtures := by
    simp [groups, entangledFixtures, entangledHost]
  refine ⟨⟨_, returns_single, ?_, ?_⟩, returns_entangled, by decide +kernel, by decide +kernel, ?_, ?_⟩
  · have refused : ∀ world : World, world.files = single →
        (Colorizer.prepare [⟨"f/x.js"⟩] (some ⟨"out/."⟩)).run.run singleHost world =
          (some (.error (.system ⟨"out/."⟩ .noEntry)), world.tick) := by
      rintro ⟨files, clock, asked, events, printed⟩ rfl
      rfl
    exact ⟨_, (ends_captureFixtures_of_returns returns_single).mpr (.act (refused _ rfl) .done), rfl⟩
  · obtain ⟨left, ends, same⟩ := SnapshotRunner.ends_of_gathers
      (gathers_workGroups singleHost ((plain ⟨"out/."⟩).run .export) _ _)
    refine ⟨_, left, ends, ?_, ?_⟩
    · rw [← one]
      decide +kernel
    · rw [same, ← one]
      decide +kernel
  · have ready : Returns entangledHost (Colorizer.prepare entangledFixtures (some ⟨"out"⟩))
        (entangledSeen.hears (.colorizing 2 ⟨"f"⟩)) () entangledReady :=
      Prod.ext (eq_some_ok (by decide +kernel)) (by rw [entangledReady])
    obtain ⟨after, ends, same⟩ := Colorizer.captureMany_of_gathers ready
      (both ▸ gathers_workGroups entangledHost ((plain ⟨"out"⟩).colorizer.captureInto (some ⟨"out"⟩))
        [entangledFixtures] entangledReady)
    refine ⟨_, after, (ends_captureFixtures_of_returns returns_entangled).mpr ends, by decide +kernel, ?_⟩
    rw [same]
    decide +kernel
  · obtain ⟨left, ends, same⟩ := SnapshotRunner.ends_of_gathers
      (both ▸ gathers_backwards entangledHost ((plain ⟨"out"⟩).run .export) ⟨"f/x.js"⟩ ⟨"f/y.js"⟩ entangledSeen)
    refine ⟨_, left, ends, by decide +kernel, ?_⟩
    rw [same]
    decide +kernel

end Single

end Colorization
