import Colorization.Proofs.Batch
import Colorization.Proofs.Snapshot.Verdict

/-! A suite of independent fixtures. However its workers take turns, each comes to the end that
its run has alone, and leaves the baseline that this leaves. -/
namespace Colorization

open FileSystem (Shelf Hand Busy)

namespace Independent

variable {results : Path} {fixtures : List Path} {files one other : FileSystem} {hands hands' : Path → Hand}
  {fixture : Path}

/-- What is there is told by what the workers have. -/
theorem node?_of_hands (inv : (shelf results fixtures files).Inv hands one)
    (inv' : (shelf results fixtures files).Inv hands other) (location : Location) :
    one.node? location = other.node? location := by
  by_cases idle : ∀ fixture, hands fixture = .away
  · have same := inv.idle idle
    have same' := inv'.idle idle
    rw [show one = files from same, show other = files from same']
  obtain ⟨fixture, notAway⟩ := not_forall.mp idle
  obtain ⟨-, folder, mode, busy⟩ := busy_of_inv inv notAway
  obtain ⟨-, folder', mode', busy'⟩ := busy_of_inv inv' notAway
  cases busy.find.symm.trans busy'.find
  by_cases owned : ∃ fixture, (hands fixture).location? folder fixture = some location
  · obtain ⟨owner, isOwn⟩ := owned
    rw [busy.laid.own owner location isOwn, busy'.laid.own owner location isOwn]
  · have free := not_exists.mp owned
    rw [busy.laid.others location free, busy'.laid.others location free]

/-- What a baseline leads to is told by the worker's hand. -/
theorem find_of_hand (independent : Independent results fixtures files) (member : fixture ∈ fixtures)
    (inv : (shelf results fixtures files).Inv hands one)
    (inv' : (shelf results fixtures files).Inv hands' other) (same : hands fixture = hands' fixture) :
    one.find (results.baseline fixture) = other.find (results.baseline fixture) := by
  by_cases placed : ∃ mode bytes, hands fixture = .placed mode bytes
  · obtain ⟨mode, bytes, placed⟩ := placed
    have placed' := same.symm.trans placed
    obtain ⟨-, folder, mode, busy⟩ := busy_of_inv inv (by rw [placed]; nofun)
    obtain ⟨-, folder', mode', busy'⟩ := busy_of_inv inv' (by rw [placed']; nofun)
    cases busy.find.symm.trans busy'.find
    have found := inv.find_placed independent.sound busy placed
    exact found.trans (inv'.find_placed independent.sound busy' placed').symm
  · have notPlaced : ∀ mode bytes, hands fixture ≠ .placed mode bytes := fun mode bytes is =>
      placed ⟨mode, bytes, is⟩
    have isBaseline : results.baseline fixture ∈ [fixture, results.baseline fixture] :=
      List.mem_cons_of_mem _ List.mem_cons_self
    rw [independent.find_eq inv member notPlaced isBaseline,
      independent.find_eq inv' member (same ▸ notPlaced) isBaseline]

end Independent

namespace SnapshotRunner

variable {host : Host} {before after : World} {fixtures : List Path}

/-- The report that the fixtures have one by one, each on the files of the beginning. -/
def alone (runner : SnapshotRunner) (host : Host) (mode : Mode) (before : World) (fixtures : List Path) :
    SuiteReport :=
  ⟨fixtures.map fun fixture => Host.resultOf fixture ((runner.run mode fixture).run.run host before).1⟩

theorem gathers_of_ends {runner : SnapshotRunner}
    (ends : (runner.runSuite fixtures mode).Ends host before result after) :
    ∃ results middle, host.Gathers (runner.run mode) (groups host.helpers fixtures) before results middle ∧
      result = some ⟨results⟩ ∧ after.files = middle.files := by
  cases ends with
  | @fanOut _ _ _ _ results middle _ _ _ _ gathers rest =>
    have ran := run_tellAll (results.filterMap failureEvent?) host middle
    refine ⟨results, middle, gathers, ?_⟩
    change Program.Ends host (.act _ fun _ => .done ⟨results⟩) middle result after at rest
    cases rest with
    | act ran' rest =>
      cases rest
      cases ran.symm.trans ran'
      exact ⟨rfl, rfl⟩
    | panic ran' => cases ran.symm.trans ran'

theorem ends_of_gathers {runner : SnapshotRunner}
    (gathers : host.Gathers (runner.run mode) (groups host.helpers fixtures) before results middle) :
    ∃ after, (runner.runSuite fixtures mode).Ends host before (some ⟨results⟩) after ∧
      after.files = middle.files := by
  have ran := run_tellAll (results.filterMap failureEvent?) host middle
  exact ⟨_, .fanOut gathers (.act ran .done), rfl⟩

/-- The hands of the workers after all of their work. -/
theorem hands_of_ends {runner : SnapshotRunner} {files : FileSystem} {listed : List Path}
    {ended : Path → Option (Except Failure Outcome)} {hand : Path → Hand}
    (keeps : ∀ fixture ∈ fixtures, (runner.run mode fixture).run.Keeps host
      (Independent.shelf runner.resultsDir fixtures files).Inv fixture
      (fun ended' hand' => ended' = ended fixture ∧ hand' = hand fixture) .away)
    (among : ∀ fixture ∈ listed, fixture ∈ fixtures) (once : listed.Nodup) (start : before.files = files)
    (ends : (runner.runSuite listed mode).Ends host before result after) :
    result = some ⟨listed.map fun fixture => Host.resultOf fixture (ended fixture)⟩ ∧
      ∃ hands, (Independent.shelf runner.resultsDir fixtures files).Inv hands after.files ∧
        ∀ fixture, hands fixture = if fixture ∈ listed then hand fixture else .away := by
  obtain ⟨results, middle, gathers, rfl, sameFiles⟩ := gathers_of_ends ends
  have flat := flatten_groups host.helpers listed
  have idle : (Independent.shelf runner.resultsDir fixtures files).Inv (fun _ => .away) before.files :=
    ⟨fun _ notAway => absurd rfl notAway, .inl ⟨fun _ => rfl, start⟩⟩
  obtain ⟨hands, inv, entries, others⟩ := gathers.keeps (flat.symm ▸ once) idle fun fixture member =>
    keeps fixture (among fixture (flat ▸ member))
  rw [flat] at entries others
  have each : List.Forall₂ (fun fixture entry => hands fixture = hand fixture ∧
      Host.resultOf fixture (ended fixture) = entry) listed results :=
    entries.imp fun fixture entry ⟨ended', isEntry, same⟩ => ⟨same.2, by rw [isEntry, same.1]⟩
  obtain ⟨settled, each⟩ := (List.forall₂_and_left _ _).mp each
  have report := List.forall₂_eq_eq_eq ▸ List.forall₂_map_left_iff.mpr each
  refine ⟨by rw [report], hands, sameFiles ▸ inv, fun fixture => ?_⟩
  split
  next inside => exact settled fixture inside
  next outside => exact others fixture outside

/-- Whatever turns the workers take, the suite reports of each fixture what its run has alone, in
the order of the fixtures, and leaves of each baseline what this run leaves; another order of the
fixtures gives the same files. -/
theorem suite_alone (reliable : host.Reliable) (steady : host.Steady) (runner : SnapshotRunner) (mode : Mode)
    (independent : Independent runner.resultsDir fixtures before.files) :
    (∃ result after, (runner.runSuite fixtures mode).Ends host before result after) ∧
    ∀ result after, (runner.runSuite fixtures mode).Ends host before result after →
      result = some (runner.alone host mode before fixtures) ∧
      (∀ fixture ∈ fixtures, after.files.find (runner.baselineOf fixture) =
        ((runner.run mode fixture).run.run host before).2.files.find (runner.baselineOf fixture)) ∧
      ∀ permuted result' after', permuted.Perm fixtures →
        (runner.runSuite permuted mode).Ends host before result' after' →
        result' = some (runner.alone host mode before permuted) ∧
        ∀ location, after'.files.node? location = after.files.node? location := by
  refine ⟨⟨_, _, Program.ends_run _ host before⟩, fun result after ends => ?_⟩
  have settled := fun fixture (member : fixture ∈ fixtures) =>
    independent.settled_run member reliable steady runner rfl mode
  choose! ended hand _ keeps using settled
  have idle : (Independent.shelf runner.resultsDir fixtures before.files).Inv (fun _ => .away)
      before.files := ⟨fun _ notAway => absurd rfl notAway, .inl ⟨fun _ => rfl, rfl⟩⟩
  have alone : ∀ fixture ∈ fixtures, ((runner.run mode fixture).run.run host before).1 = ended fixture ∧
      (Independent.shelf runner.resultsDir fixtures before.files).Inv
        (Function.update (fun _ => .away) fixture (hand fixture))
        ((runner.run mode fixture).run.run host before).2.files := by
    intro fixture member
    obtain ⟨hand', inv, same, rfl⟩ := (keeps fixture member).run idle
    exact ⟨same, inv⟩
  have isAlone : ∀ listed : List Path, (∀ fixture ∈ listed, fixture ∈ fixtures) →
      ⟨listed.map fun fixture => Host.resultOf fixture (ended fixture)⟩ =
        runner.alone host mode before listed := by
    intro listed among
    have same : ∀ fixture ∈ listed, Host.resultOf fixture (ended fixture) = _ :=
      fun fixture member => by rw [← (alone fixture (among fixture member)).1]
    rw [List.map_congr_left same]
    rfl
  have once := independent.nodup
  obtain ⟨rfl, hands, inv, isHand⟩ := hands_of_ends keeps (fun _ => id) once rfl ends
  refine ⟨by rw [isAlone fixtures fun _ => id], fun fixture member => ?_,
    fun permuted result' after' permutes ends' => ?_⟩
  · refine independent.find_of_hand member inv (alone fixture member).2 ?_
    rw [isHand, if_pos member, Function.update_self]
  · have among : ∀ fixture ∈ permuted, fixture ∈ fixtures := fun _ => permutes.mem_iff.mp
    obtain ⟨rfl, hands', inv', isHand'⟩ :=
      hands_of_ends keeps among (permutes.nodup_iff.mpr once) rfl ends'
    refine ⟨by rw [isAlone permuted among], fun location => ?_⟩
    have same : hands' = hands := by
      funext fixture
      rw [isHand, isHand']
      simp only [permutes.mem_iff]
    rw [same] at inv'
    exact Independent.node?_of_hands inv' inv location

/-- Only one file has tokens. -/
def knowing (fixture : Path) (capture : Capture) : Host where
  tokenize path := if path = fixture then .tokens capture else .panicked
  execute _ _ _ := .error .noEntry
  breakdown? _ := none
  helpers := 1

def pair : List Path := [⟨"x.js"⟩, ⟨"y.js"⟩]

/-- Two sources, and no directory for results. -/
def sources : FileSystem where
  nodes := [(["x.js"], .file 0o644 (.ofBytes .empty)), (["y.js"], .file 0o644 (.ofBytes .empty))]
  working := []

theorem folder_of_sources
    (found : (sources.furnished ⟨"results"⟩).find (Path.baselineDirectory ⟨"results"⟩) =
      .ok (folder, .directory mode)) : folder = ["results"] := by
  have isThere : (sources.furnished ⟨"results"⟩).find (Path.baselineDirectory ⟨"results"⟩) =
      .ok (["results"], .directory FileSystem.directoryMode) := rfl
  cases isThere.symm.trans found
  rfl

theorem independent_sources : Independent ⟨"results"⟩ pair sources where
  rooted := (FileSystem.isTree_of_nodes (by decide) (by decide) (by decide)).rooted
  distinct := by decide
  whole := by
    have made : (sources.makeDirectories (Path.baselineDirectory ⟨"results"⟩)).1 = .ok () := rfl
    rw [made]
    nofun
  furnished := by
    simp only [pair, List.forall_mem_cons, List.not_mem_nil, false_implies, implies_true, and_true]
    exact ⟨⟨rfl, rfl⟩, rfl, rfl⟩
  apart := by
    intro folder mode found fixture member path isOwn location visited
    rw [folder_of_sources found]
    have spared : ∀ fixture ∈ pair, ∀ path ∈ [fixture, (⟨"results"⟩ : Path).baseline fixture],
        ∀ location ∈ (sources.furnished ⟨"results"⟩).visited path,
          isSpared pair fixture (sources.furnished ⟨"results"⟩) ["results"] location = true := by
      decide +kernel
    exact not_taken_of_isSpared (spared fixture member path isOwn location visited)
  way := by
    intro folder mode found fixture member visited
    rw [folder_of_sources found] at visited
    have aside : ∀ fixture ∈ pair, ["results"] ++ [fixture.baselineName] ∉
        (sources.furnished ⟨"results"⟩).visited (Path.baselineDirectory ⟨"results"⟩) := by decide +kernel
    exact absurd visited (aside fixture member)
  nameable := by
    intro _
    unfold FileSystem.Nameable
    decide +kernel

theorem suite_alone_sources : (knowing ⟨"x.js"⟩ oneTheme).Reliable ∧ (knowing ⟨"x.js"⟩ oneTheme).Steady ∧
    Independent ⟨"results"⟩ pair sources ∧
    ∃ result after, ((plain ⟨"results"⟩).runSuite pair .check).Ends (knowing ⟨"x.js"⟩ oneTheme)
      (.start sources) result after ∧
    result = some ((plain ⟨"results"⟩).alone (knowing ⟨"x.js"⟩ oneTheme) .check (.start sources) pair) ∧
    after.files.read ((plain ⟨"results"⟩).baselineOf ⟨"x.js"⟩) =
      .ok (oneTheme.serialize .compact).toUTF8 := by
  have reliable : (knowing ⟨"x.js"⟩ oneTheme).Reliable := fun _ => rfl
  have steady : (knowing ⟨"x.js"⟩ oneTheme).Steady := fun _ _ _ _ => rfl
  have independent : Independent (plain ⟨"results"⟩).resultsDir pair (World.start sources).files :=
    independent_sources
  obtain ⟨⟨result, after, ends⟩, all⟩ := suite_alone reliable steady (plain ⟨"results"⟩) .check independent
  obtain ⟨reported, left, -⟩ := all result after ends
  refine ⟨reliable, steady, independent_sources, result, after, ends, reported, ?_⟩
  rw [FileSystem.read_congr (left ⟨"x.js"⟩ (by decide))]
  decide +kernel

/-- The baseline of one source is a link to that of the other. -/
def linked : FileSystem where
  nodes := [(["results"], .directory FileSystem.directoryMode),
    (["results", "y_js.json"], .file 0o644 (.ofText "[]")),
    (["results", "x_js.json"], .link ⟨"y_js.json"⟩),
    (["x.js"], .file 0o644 (.ofBytes .empty)), (["y.js"], .file 0o644 (.ofBytes .empty))]
  working := []

/-- A suite in which only the second source has tokens gives the first another baseline than its
run, which fails, alone. -/
theorem suite_writes_through_link : ∃ result after,
    ((plain ⟨"results"⟩).runSuite pair .export).Ends (knowing ⟨"y.js"⟩ oneTheme) (.start linked) result
      after ∧
    (pair.Pairwise fun one other =>
      ((plain ⟨"results"⟩).baselineOf one).same ((plain ⟨"results"⟩).baselineOf other) = false) ∧
    (∀ one ∈ pair, ∀ other ∈ pair, ((plain ⟨"results"⟩).baselineOf one).same other = false) ∧
    after.files.read ((plain ⟨"results"⟩).baselineOf ⟨"x.js"⟩) ≠
      (((plain ⟨"results"⟩).run .export ⟨"x.js"⟩).run.run (knowing ⟨"y.js"⟩ oneTheme)
        (.start linked)).2.files.read ((plain ⟨"results"⟩).baselineOf ⟨"x.js"⟩) := by
  have one : [pair] = groups (knowing ⟨"y.js"⟩ oneTheme).helpers pair := by
    simp [groups, pair, knowing]
  obtain ⟨after, ends, same⟩ := ends_of_gathers (one ▸ gathers_workGroups (knowing ⟨"y.js"⟩ oneTheme)
    ((plain ⟨"results"⟩).run .export) [pair] (.start linked))
  refine ⟨_, after, ends, by decide, by decide, ?_⟩
  rw [same]
  decide +kernel

end SnapshotRunner

end Colorization
