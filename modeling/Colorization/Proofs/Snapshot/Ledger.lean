import Colorization.Proofs.Snapshot.BatchRecord
import Colorization.Proofs.Snapshot.Independence
import Mathlib.Data.Set.Pairwise.Basic

/-! Histories of all operations on baselines, with failures among them. The baseline of a fixture is
at any time the last capture of it that was accepted. -/
namespace Colorization

open Colorization.Action (Returns Fails)

/-- Operations one after the other, each by a colorizer and on a host of its own, and the captures
that were accepted last. -/
inductive Ledger (results : Path) (fixtures : Set Path) (first : FileSystem) :
    FileSystem → (Path → Option Capture) → Prop where
  | start : Ledger results fixtures first first fun _ => none
  | run {host : Host} {colorizer : Colorizer} {before after : World} :
      Ledger results fixtures first before.files accepted → fixture ∈ fixtures →
      Returns host ((⟨colorizer, results⟩ : SnapshotRunner).run mode fixture) before outcome after →
      colorizer.Captures host before.files fixture current →
      Ledger results fixtures first after.files (Function.update accepted fixture (some current))
  | failedRun {host : Host} {colorizer : Colorizer} {before after : World} {failure : Option Failure} :
      Ledger results fixtures first before.files accepted → fixture ∈ fixtures →
      Fails host ((⟨colorizer, results⟩ : SnapshotRunner).run mode fixture) before failure after →
      Ledger results fixtures first after.files accepted
  | batch {host : Host} {colorizer : Colorizer} {before after : World} :
      Ledger results fixtures first before.files accepted → paths.Nodup →
      (∀ path ∈ paths, path ∈ fixtures) →
      (colorizer.captureMany paths (some results)).run.Ends host before (some (.ok report)) after →
      Ledger results fixtures first after.files
        fun fixture => (report.captured.lookup fixture).or (accepted fixture)
  | failedBatch {host : Host} {colorizer : Colorizer} {before after : World} :
      Ledger results fixtures first before.files accepted →
      (colorizer.captureMany paths (some results)).run.Ends host before result after →
      (∀ report, result ≠ some (.ok report)) → Ledger results fixtures first after.files accepted

/-- The baseline is the capture: it is read back, and a check against it passes and changes nothing. -/
structure AtBaseline (results fixture : Path) (files : FileSystem) (capture : Capture) : Prop where
  loads : ∀ {host : Host} {before : World}, host.Reliable → before.files = files →
    ∃ after, Returns host (Capture.load (results.baseline fixture)) before capture after
  passes : ∀ {host : Host} {before captured : World} (colorizer : Colorizer), host.Reliable →
    before.files = files → Returns host (colorizer.capture fixture) before capture captured →
    ∃ after, Returns host ((⟨colorizer, results⟩ : SnapshotRunner).run .check fixture) before .passed after ∧
      after.files = files

/-- The baseline is as it was at first. -/
structure Untouched (results fixture : Path) (first files : FileSystem) : Prop where
  kept : ∀ place, first.find (results.baseline fixture) = .ok place →
    files.find (results.baseline fixture) = .ok place
  read : ∀ bytes, first.read (results.baseline fixture) = .ok bytes →
    files.read (results.baseline fixture) = .ok bytes
  /-- Whatever else the path has come to lead to was there. -/
  old : ∀ location node, files.find (results.baseline fixture) = .ok (location, node) →
    (∀ mode, node ≠ .directory mode) → first.node? location = some node
  /-- It has come to lead to nothing else, unless it climbs out of a directory. -/
  absent : .parent ∉ results.components →
    (∀ place, first.find (results.baseline fixture) ≠ .ok place) →
    ∀ place, files.find (results.baseline fixture) ≠ .ok place

variable {results fixture : Path} {fixtures : Set Path} {first before after files : FileSystem}
  {accepted : Path → Option Capture} {current : Capture}

/-- A check finds a baseline that is there, loads it and goes on with it. -/
theorem SnapshotRunner.returns_check_of_settle {host : Host} {before after : World} (reliable : host.Reliable)
    (runner : SnapshotRunner) (held : before.files.Holds (runner.baselineOf fixture) former)
    (settled : Returns host (runner.settle fixture former current) before.tick.tick outcome after) :
    Returns host (runner.check fixture current) before outcome after := by
  obtain ⟨answer, there⟩ := FileSystem.stat_of_holds held
  have looked : before.look host (fun files => files.stat (runner.baselineOf fixture)) =
      (.ok answer, before.tick) := World.look_eq_ok_iff.mpr ⟨reliable _, there, rfl⟩
  have asked : Returns host (liftM (Routine.stat (runner.baselineOf fixture))) before (.ok answer)
      before.tick := (Action.returns_request (.stat _)).mpr looked
  have found : Returns host (isThere (runner.baselineOf fixture)) before true before.tick :=
    Action.returns_bind.mpr ⟨_, _, asked, Action.returns_pure.mpr ⟨rfl, rfl⟩⟩
  have loaded : Returns host (Capture.load (runner.baselineOf fixture)) before.tick former before.tick.tick :=
    Capture.returns_load.mpr ⟨reliable _, held, rfl⟩
  refine Action.returns_bind.mpr ⟨true, before.tick, found, ?_⟩
  exact Action.returns_bind.mpr ⟨former, _, loaded, settled⟩

/-- A check of what the baseline holds writes nothing. -/
theorem SnapshotRunner.returns_check_of_holds {host : Host} {before : World} (reliable : host.Reliable)
    (runner : SnapshotRunner) (held : before.files.Holds (runner.baselineOf fixture) current) :
    ∃ after, Returns host (runner.check fixture current) before .passed after ∧
      after.files = before.files := by
  obtain ⟨after, told⟩ := Action.exists_returns_tell host before.tick.tick (.matching fixture)
  have settled : Returns host (runner.settle fixture current current) before.tick.tick .passed after := by
    rw [settle, (Capture.classify_eq_identical_iff current current).mpr rfl]
    exact Action.returns_bind.mpr ⟨(), after, told, Action.returns_pure.mpr ⟨rfl, rfl⟩⟩
  exact ⟨after, runner.returns_check_of_settle reliable held settled, (Action.files_of_tell told).trans rfl⟩

theorem atBaseline_of_holds (held : files.Holds (results.baseline fixture) current) :
    AtBaseline results fixture files current := by
  refine ⟨fun {host before} reliable same => ?_, fun {host before captured} colorizer reliable same capture => ?_⟩
  · subst same
    exact ⟨_, Capture.returns_load.mpr ⟨reliable _, held, rfl⟩⟩
  · have unchanged := (Colorizer.captures_of_capture capture).2.trans same
    rw [← unchanged] at held ⊢
    obtain ⟨after, checked, same⟩ :=
      SnapshotRunner.returns_check_of_holds reliable ⟨colorizer, results⟩ held
    exact ⟨after, Action.returns_bind.mpr ⟨current, captured, capture, checked⟩, same⟩

/-- What is known of the files after any number of operations. -/
structure Standing (results : Path) (fixtures : Set Path) (first files : FileSystem)
    (accepted : Path → Option Capture) : Prop where
  linkFree : files.LinkFree
  rooted : files.Rooted
  member : ∀ {fixture current}, accepted fixture = some current →
    fixture ∈ fixtures ∧ ∃ name, fixture.fileName? = some name
  held : ∀ {fixture current}, accepted fixture = some current →
    files.Holds (results.baseline fixture) current
  /-- A file that was not there at first has the name of an accepted baseline. -/
  origin : ∀ {location node}, files.node? location = some node → (∀ mode, node ≠ .directory mode) →
    first.node? location = some node ∨ ∃ name ∈ acceptedNames accepted, location.getLast? = some name
  kept : ∀ {fixture name place}, fixture ∈ fixtures → fixture.fileName? = some name →
    accepted fixture = none → first.find (results.baseline fixture) = .ok place →
    files.find (results.baseline fixture) = .ok place
  absent : ∀ {fixture name place}, fixture ∈ fixtures → fixture.fileName? = some name →
    accepted fixture = none → .parent ∉ results.components →
    files.find (results.baseline fixture) = .ok place → first.find (results.baseline fixture) = .ok place

namespace Standing

theorem start (linkFree : files.LinkFree) (rooted : files.Rooted) :
    Standing results fixtures files files fun _ => none where
  linkFree := linkFree
  rooted := rooted
  member := nofun
  held := nofun
  origin there _ := .inl there
  kept _ _ _ found := found
  absent _ _ _ _ found := found

/-- What was accepted before or by an operation is accepted, each fixture by the later of the two. -/
theorem acceptedNames_or (given accepted : Path → Option Capture) :
    acceptedNames (fun fixture => (given fixture).or (accepted fixture)) =
      acceptedNames given ∪ acceptedNames accepted := by
  ext name
  constructor
  · rintro ⟨fixture, current, taken, same⟩
    rcases Option.or_eq_some_iff.mp taken with now | ⟨-, earlier⟩
    · exact .inl ⟨fixture, current, now, same⟩
    · exact .inr ⟨fixture, current, earlier, same⟩
  · rintro (⟨fixture, current, now, same⟩ | ⟨fixture, current, earlier, same⟩)
    · exact ⟨fixture, current, by simp [now], same⟩
    · cases now : given fixture with
      | none => exact ⟨fixture, current, by simp [now, earlier], same⟩
      | some current' => exact ⟨fixture, current', by simp [now], same⟩

/-- The baseline of a fixture for which an operation has accepted nothing leads to what it led to when
the directories were made. -/
theorem find_iff_of_stocked {ground : FileSystem} {given : Path → Option Capture} {name : String}
    {place : Location × FileSystem.Node} (distinct : DistinctBaselines results fixtures)
    (groundFree : ground.LinkFree) (stocked : FileSystem.Stocked (acceptedNames given) ground after)
    (among : ∀ {fixture current}, given fixture = some current →
      fixture ∈ fixtures ∧ ∃ name, fixture.fileName? = some name)
    (member : fixture ∈ fixtures) (named : fixture.fileName? = some name) (nothing : given fixture = none) :
    after.find (results.baseline fixture) = .ok place ↔
      ground.find (results.baseline fixture) = .ok place := by
  rw [Path.baseline_eq named]
  refine stocked.find_iff groundFree (Path.plain_of_fileName? named).baselineSegment ?_
  rw [← Path.baselineName_eq named]
  rintro ⟨other, current, taken, same⟩
  obtain ⟨member', name', named'⟩ := among taken
  obtain rfl := distinct.eq_of_name member' named' member named same
  rw [nothing] at taken
  cases taken

/-- What one operation has accepted counts from then on. -/
theorem record (standing : Standing results fixtures first before accepted)
    (distinct : DistinctBaselines results fixtures) {given : Path → Option Capture}
    (recorded : Recorded results fixtures before after given) :
    Standing results fixtures first after fun fixture => (given fixture).or (accepted fixture) := by
  obtain ⟨⟨ground, equipped, stocked⟩, all, held⟩ := recorded
  have groundFree := equipped.grows.linkFree standing.linkFree
  have neither : ∀ {fixture}, (given fixture).or (accepted fixture) = none →
      given fixture = none ∧ accepted fixture = none := Option.or_eq_none_iff.mp
  refine ⟨stocked.linkFree groundFree, stocked.rooted (equipped.rooted standing.rooted),
    fun {fixture current} taken => ?_, fun {fixture current} taken => ?_,
    fun {location node} there notFolder => ?_, fun {fixture name place} member isName nothing found => ?_,
    fun {fixture name place} member isName nothing level found => ?_⟩
  · rcases Option.or_eq_some_iff.mp taken with now | ⟨-, earlier⟩
    · exact all now
    · exact standing.member earlier
  · rcases Option.or_eq_some_iff.mp taken with now | ⟨nothing, earlier⟩
    · exact held now
    · obtain ⟨text, readBack, parsed⟩ := standing.held earlier
      obtain ⟨member, name, isName⟩ := standing.member earlier
      refine ⟨text, FileSystem.read_of_find (fun place found => ?_) readBack, parsed⟩
      rw [find_iff_of_stocked distinct groundFree stocked all member isName nothing]
      exact FileSystem.find_of_extends equipped.grows.extends found
  · rw [acceptedNames_or]
    rcases stocked.node location with same | ⟨-, name, inside, last⟩
    · rw [same, equipped.grows.node_iff notFolder] at there
      exact (standing.origin there notFolder).imp_right fun ⟨name, inside, last⟩ => ⟨name, .inr inside, last⟩
    · exact .inr ⟨name, .inl inside, last⟩
  · obtain ⟨nothing, before⟩ := neither nothing
    rw [find_iff_of_stocked distinct groundFree stocked all member isName nothing]
    exact FileSystem.find_of_extends equipped.grows.extends (standing.kept member isName before found)
  · obtain ⟨nothing, before⟩ := neither nothing
    rw [find_iff_of_stocked distinct groundFree stocked all member isName nothing] at found
    exact standing.absent member isName before level (equipped.find_of_find standing.rooted isName level found)

end Standing

/-- Every operation leaves the files standing as the ledger says. -/
theorem Ledger.standing (ledger : Ledger results fixtures first files accepted)
    (distinct : DistinctBaselines results fixtures) (linkFree : first.LinkFree) (rooted : first.Rooted) :
    Standing results fixtures first files accepted := by
  induction ledger with
  | start => exact .start linkFree rooted
  | run _ member returned captures ih =>
    rw [← or_only]
    exact ih.record distinct (SnapshotRunner.recorded_of_run member ih.rooted ih.linkFree returned captures)
  | failedRun _ _ failed ih => exact ih.record distinct (SnapshotRunner.recorded_of_failed_run ih.rooted failed)
  | batch _ once among ends ih =>
    exact ih.record distinct (Colorizer.recorded_of_batch distinct ih.linkFree ih.rooted once among ends)
  | failedBatch _ ends failed ih =>
    exact ih.record distinct (Colorizer.recorded_of_failed_batch ends failed)

theorem Standing.untouched (standing : Standing results fixtures first files accepted)
    (distinct : DistinctBaselines results fixtures) (member : fixture ∈ fixtures)
    (named : fixture.fileName? = some name) (nothing : accepted fixture = none) :
    Untouched results fixture first files where
  kept _ found := standing.kept member named nothing found
  read _ wasRead := FileSystem.read_of_find (fun _ found => standing.kept member named nothing found) wasRead
  old location node found notFolder := by
    obtain ⟨-, _, -, leads⟩ := FileSystem.find_eq_ok_iff.mp found
    rw [Path.baseline_eq named] at found
    have last := standing.linkFree.getLast?_of_find (Path.plain_of_fileName? named).baselineSegment found
    rcases standing.origin leads.found notFolder with there | ⟨_, ⟨other, current, taken, rfl⟩, last'⟩
    · exact there
    · obtain ⟨member', name', named'⟩ := standing.member taken
      rw [last', ← Path.baselineName_eq named, Option.some.injEq] at last
      obtain rfl := distinct.eq_of_name member' named' member named last
      rw [nothing] at taken
      cases taken
  absent level free place found := free place (standing.absent member named nothing level found)

/-- Whatever operations there were, the baseline of a fixture is the last capture that was accepted
for it; where none was, the baseline is as it was at first. -/
theorem last_accepted (linkFree : first.LinkFree) (rooted : first.Rooted)
    (distinct : DistinctBaselines results fixtures) (ledger : Ledger results fixtures first files accepted)
    (member : fixture ∈ fixtures) :
    (∀ current, accepted fixture = some current → AtBaseline results fixture files current) ∧
    (accepted fixture = none → (∃ name, fixture.fileName? = some name) →
      Untouched results fixture first files) := by
  have standing := ledger.standing distinct linkFree rooted
  refine ⟨fun current taken => atBaseline_of_holds (standing.held taken), fun nothing ⟨name, named⟩ => ?_⟩
  exact standing.untouched distinct member named nothing

namespace SnapshotRunner

/-- A host on which every request breaks down. -/
def refusing : Host where
  tokenize _ := .panicked
  execute _ _ _ := .error .noEntry
  breakdown? _ := some ⟨.permissionDenied, 0⟩
  helpers := 0

/-- Two sources, and a baseline for one of them. -/
def half : FileSystem where
  nodes := [(["b"], .directory FileSystem.directoryMode),
    (["b", "x_js.json"], .file 0o644 (.ofText "[]")),
    (["x.js"], .file 0o644 (.ofBytes .empty)), (["y.js"], .file 0o644 (.ofBytes .empty))]
  working := []

theorem half_linkFree : half.LinkFree := FileSystem.linkFree_of_nodes rfl

theorem half_rooted : half.Rooted :=
  (FileSystem.isTree_of_nodes (by decide) (by decide) (by decide)).rooted

/-- The one source is exported, and the check of the other fails. -/
theorem ledger_half {after : World}
    (returned : Returns (.quiet oneTheme) ((plain results).run .export ⟨"y.js"⟩) (.start half) outcome after) :
    Ledger results {⟨"x.js"⟩, ⟨"y.js"⟩} half after.files (only ⟨"y.js"⟩ oneTheme) := by
  have failed : Fails refusing ((plain results).run .check ⟨"x.js"⟩) after
      (some (.capture ⟨"x.js"⟩ .permissionDenied)) after.tick := rfl
  have ledger : Ledger results {⟨"x.js"⟩, ⟨"y.js"⟩} half after.tick.files (only ⟨"y.js"⟩ oneTheme) :=
    .failedRun (.run .start (.inr rfl) returned ⟨oneTheme, rfl, rfl⟩) (.inl rfl) failed
  exact ledger

theorem distinct_half (apart : (results.baseline ⟨"x.js"⟩).same (results.baseline ⟨"y.js"⟩) = false)
    (apart' : (results.baseline ⟨"y.js"⟩).same (results.baseline ⟨"x.js"⟩) = false) :
    DistinctBaselines results {⟨"x.js"⟩, ⟨"y.js"⟩} :=
  Set.pairwise_pair.mpr fun _ => ⟨apart, apart'⟩

theorem last_accepted_half : ∃ files accepted, half.LinkFree ∧ half.Rooted ∧
    DistinctBaselines ⟨"b"⟩ {⟨"x.js"⟩, ⟨"y.js"⟩} ∧
    Ledger ⟨"b"⟩ {⟨"x.js"⟩, ⟨"y.js"⟩} half files accepted ∧
    AtBaseline ⟨"b"⟩ ⟨"y.js"⟩ files oneTheme ∧ Untouched ⟨"b"⟩ ⟨"x.js"⟩ half files := by
  have passes : Action.returnsWith (.quiet oneTheme) ((plain ⟨"b"⟩).run .export ⟨"y.js"⟩) (.start half)
      (fun _ _ => true) = true := by decide +kernel
  obtain ⟨outcome, after, returned, -⟩ := Action.returns_of_returnsWith passes
  have ledger := ledger_half returned
  have distinct : DistinctBaselines ⟨"b"⟩ {⟨"x.js"⟩, ⟨"y.js"⟩} := distinct_half (by decide) (by decide)
  refine ⟨_, _, half_linkFree, half_rooted, distinct, ledger, ?_, ?_⟩
  · exact (last_accepted half_linkFree half_rooted distinct ledger (.inr rfl)).1 _ rfl
  · exact (last_accepted half_linkFree half_rooted distinct ledger (.inl rfl)).2 rfl ⟨"x.js", by decide⟩

/-- No capture of the one source is accepted, and its baseline is not there at first; when the other
has made the directory that the path climbs out of, it is. -/
theorem export_opens_other : ∃ files accepted, half.LinkFree ∧ half.Rooted ∧
    DistinctBaselines ⟨"a/../b"⟩ {⟨"x.js"⟩, ⟨"y.js"⟩} ∧
    Ledger ⟨"a/../b"⟩ {⟨"x.js"⟩, ⟨"y.js"⟩} half files accepted ∧ accepted ⟨"x.js"⟩ = none ∧
    (∀ place, half.find ((plain ⟨"a/../b"⟩).baselineOf ⟨"x.js"⟩) ≠ .ok place) ∧
    files.read ((plain ⟨"a/../b"⟩).baselineOf ⟨"x.js"⟩) = .ok "[]".toUTF8 := by
  have passes : Action.returnsWith (.quiet oneTheme) ((plain ⟨"a/../b"⟩).run .export ⟨"y.js"⟩) (.start half)
      (fun _ after => after.files.read ((plain ⟨"a/../b"⟩).baselineOf ⟨"x.js"⟩) = .ok "[]".toUTF8) =
      true := by decide +kernel
  obtain ⟨outcome, after, returned, opened⟩ := Action.returns_of_returnsWith passes
  have absent : (half.find ((plain ⟨"a/../b"⟩).baselineOf ⟨"x.js"⟩)).isOk = false := by decide +kernel
  refine ⟨_, _, half_linkFree, half_rooted, distinct_half (by decide) (by decide), ledger_half returned,
    rfl, fun place found => ?_, by simpa using opened⟩
  rw [found] at absent
  cases absent

end SnapshotRunner

end Colorization
