import Colorization.Proofs.Batch.Account
import Colorization.Proofs.Batch.Clashes
import Colorization.Proofs.Batch.Deliveries
import Colorization.Proofs.Routine.Told

/-! All shared outputs of a batch are found, and where there are none every capture has a file of its own. -/
namespace Colorization

open Colorization.Action (Returns)

/-- A path that was captured is there once. -/
theorem Captures.Ordered.lookup_eq_some {captures : Captures} (ordered : captures.Ordered)
    (member : (path, capture) ∈ captures) : captures.lookup path = some capture := by
  induction captures with
  | nil => cases member
  | cons first rest ih =>
    obtain ⟨above, later⟩ := List.pairwise_cons.mp ordered
    rw [lookup_cons]
    rcases List.mem_cons.mp member with rfl | member
    · exact if_pos rfl
    · have less := above _ member
      rw [if_neg, ih later member]
      rintro rfl
      exact List.lt_irrefl _ less

/-- The workers have put what was captured in its place, each in another, and lost track of no path. -/
structure Delivered (format : Format) (directory : Path) (paths : List Path) (before after : FileSystem)
    (report : BatchReport) : Prop where
  each : ∀ path ∈ paths, (∃ capture, (path, capture) ∈ report.captured) ∨
    ∃ failure, (path, failure) ∈ report.failures
  among : ∀ path capture, (path, capture) ∈ report.captured → path ∈ paths
  own : ∀ path capture, (path, capture) ∈ report.captured → ∃ location mode,
    before.Enters (directory.baseline path) location ∧
      after.node? location = some (.file mode (.ofBytes (capture.serialize format).toUTF8)) ∧
      ∀ other capture', (other, capture') ∈ report.captured →
        before.Enters (directory.baseline other) location → other = path
  /-- As long as no output is in the place of a link, which might be on the way to others. -/
  held : (∀ path ∈ paths, ∀ location, before.Enters (directory.baseline path) location →
      ∀ target, before.node? location ≠ some (.link target)) →
    ∀ path capture, (path, capture) ∈ report.captured → after.Holds (directory.baseline path) capture

section Delivered

variable {host : Host} {before after : World} {first files base : FileSystem} {directory path : Path}
  {paths : List Path} {colorizer : Colorizer} {report : BatchReport} {hands : Path → Delivery}
  {drafts : Nat → Option FileSystem.Draft}

/-- If no link is in the place of an output, links stay. -/
theorem AtWork.firm (atWork : AtWork first directory paths base drafts hands files)
    (noLinks : ∀ path ∈ paths, ∀ location, first.Enters (directory.baseline path) location →
      ∀ target, first.node? location ≠ some (.link target)) : FileSystem.Firm base files := by
  have stays : ∀ location node, base.node? location = some node →
      (∃ mode, node = .directory mode) ∨ (∃ target, node = .link target) → files.node? location = some node := by
    intro location node there isWay
    rcases atWork.kept.stands location with same | ⟨-, notFolder, claimed | ⟨none, -⟩⟩
    · rw [same, there]
    · rcases isWay with ⟨mode, rfl⟩ | ⟨target, rfl⟩
      · exact absurd there (notFolder mode)
      · obtain ⟨output, ⟨path, member, -, isOutput⟩, enters⟩ := claimed
        rw [isOutput] at enters
        have noFolder : ∀ mode, FileSystem.Node.link target ≠ .directory mode := nofun
        have linked := (atWork.kept.grows.node_iff noFolder).mp there
        exact absurd linked (noLinks path member location enters target)
    · cases there.symm.trans none
  exact ⟨fun location mode there => stays location _ there (.inl ⟨mode, rfl⟩),
    fun location target there => stays location _ there (.inr ⟨target, rfl⟩), atWork.kept.working⟩

/-- Where no output is shared, different paths have different ones. -/
theorem distinct_of_sharedOutputs (none : sharedOutputs directory paths = []) :
    paths.Nodup ∧ DistinctBaselines directory {path | path ∈ paths} := by
  have apart := sharedOutputs_eq_nil_iff.mp none
  have symm : Std.Symm fun one other => (directory.baseline one).same (directory.baseline other) = false :=
    ⟨fun one other differ => by rwa [Path.same_comm]⟩
  refine ⟨apart.imp fun differ same => ?_, apart.set_pairwise⟩
  simp [same, Path.same] at differ

/-- All workers of a batch with a report have been at work, and those that captured have put it in its place. -/
theorem Colorizer.atWork_of_batch (nested : before.files.Nested) (once : paths.Nodup)
    (distinct : DistinctBaselines directory {path | path ∈ paths})
    (ends : (colorizer.captureMany paths (some directory)).run.Ends host before (some (.ok report)) after) :
    ∃ base drafts hands, ∃ ended : Path → Option (Except Failure Capture),
      AtWork before.files directory paths base drafts hands after.files ∧
        report = .ofResults (paths.map fun path => Host.resultOf path (ended path)) ∧
        ∀ path ∈ paths, ∀ capture, ended path = some (.ok capture) → (∃ name, path.fileName? = some name) ∧
          hands path = .placed (capture.serialize colorizer.format).toUTF8 := by
  rcases ends_captureMany ends with ⟨failure, ⟨⟩, -⟩ | ⟨entries, prepared, gathered, made, gathers, same, left⟩
  have flat := flatten_groups host.helpers paths
  have begun : Delivers before.files directory paths (fun _ => .away) prepared.files :=
    made ▸ .start (FileSystem.branches_makeDirectories ..)
  obtain ⟨hands, ⟨base, drafts, atWork⟩, entered, -⟩ := gathers.keeps (flat.symm ▸ once) begun fun path member =>
    colorizer.keeps_captureInto distinct (flat ▸ member) nested
  rw [flat] at entered
  obtain ⟨ended, rfl, promised⟩ := exists_map_resultOf once entered
  exact ⟨base, drafts, hands, ended, left ▸ atWork, Except.ok.inj (Option.some.inj same), promised⟩

/-- The captures of the report are those of the workers. -/
theorem mem_report_iff {ended : Path → Option (Except Failure Capture)} (once : paths.Nodup)
    (distinct : DistinctBaselines directory {path | path ∈ paths})
    (named : ∀ path ∈ paths, ∀ capture, ended path = some (.ok capture) → ∃ name, path.fileName? = some name) :
    (path, capture) ∈
        (BatchReport.ofResults (paths.map fun path => Host.resultOf path (ended path))).captured ↔
      path ∈ paths ∧ ended path = some (.ok capture) := by
  rw [← lookup_report distinct once (fun _ => id) named]
  exact ⟨(BatchReport.sums_ofResults _).ordered.lookup_eq_some, Captures.mem_of_lookup⟩

/-- Whatever has been captured is there in the end, however the workers have taken turns. -/
theorem Colorizer.delivered_of_batch (nested : before.files.Nested) (none : sharedOutputs directory paths = [])
    (ends : (colorizer.captureMany paths (some directory)).run.Ends host before (some (.ok report)) after) :
    Delivered colorizer.format directory paths before.files after.files report := by
  obtain ⟨once, distinct⟩ := distinct_of_sharedOutputs none
  obtain ⟨base, drafts, hands, ended, atWork, rfl, promised⟩ := atWork_of_batch nested once distinct ends
  have captured := fun path capture => @mem_report_iff directory path paths capture ended once distinct
    fun path member capture isEnd => (promised path member capture isEnd).1
  -- the invariant keeps what a worker has placed, so it is there after the last of the others too
  have placed : ∀ path capture, path ∈ paths ∧ ended path = some (.ok capture) →
      (∃ name, path.fileName? = some name) ∧
      ∃ location, base.entry? (directory.baseline path) = .ok (some ⟨location, false⟩) ∧
        ∃ mode, after.files.node? location =
          some (.file mode (.ofBytes (capture.serialize colorizer.format).toUTF8)) := by
    rintro path capture ⟨member, isEnd⟩
    have stands := atWork.stands path member
    rwa [(promised path member capture isEnd).2] at stands
  refine ⟨fun path member => ?_, fun path capture inside => ((captured ..).mp inside).1,
    fun path capture inside => ?_, fun noLinks path capture inside => ?_⟩
  · cases result : (Host.resultOf path (ended path)).2 with
    | ok capture => exact .inl ⟨capture, (captured ..).mpr ⟨member, resultOf_eq_ok_iff.mp result⟩⟩
    | error failure =>
      refine .inr ⟨failure, ?_⟩
      rw [BatchReport.failures_ofResults, BatchReport.mem_faults_iff, ← result]
      exact List.mem_map_of_mem member
  · have inside := (captured ..).mp inside
    obtain ⟨⟨name, named⟩, location, entered, mode, there⟩ := placed path capture inside
    refine ⟨location, mode, ⟨base, atWork.kept.grows, entered⟩, there, fun other capture' inside' enters => ?_⟩
    have inside' := (captured ..).mp inside'
    obtain ⟨⟨name', named'⟩, location', entered', -⟩ := placed other capture' inside'
    cases enters.unique ⟨base, atWork.kept.grows, entered'⟩
    have last := FileSystem.getLast?_of_entry?_baseline named entered
    rw [FileSystem.getLast?_of_entry?_baseline named' entered', Option.some.injEq] at last
    exact distinct.eq_of_name inside'.1 named' inside.1 named last
  · obtain ⟨-, location, entered, mode, there⟩ := placed path capture ((captured ..).mp inside)
    have entered := FileSystem.entry?_of_firm (atWork.firm noLinks) entered
    have found := FileSystem.find_of_entry? entered there nofun
    exact FileSystem.holds_of_read
      (FileSystem.read_eq_ok_iff.mpr ⟨_, _, found, nofun, (Content.bytes_ofBytes _).symm⟩)

end Delivered

/-- The log has a warning for each clash. -/
theorem Colorizer.events_of_prepare {host : Host} {before after : World}
    (returned : Returns host (prepare paths (some directory)) before () after) :
    after.events = before.events ++ (Clash.all directory paths).map fun clash =>
      Event.sharedOutput clash.first clash.second clash.output := by
  obtain ⟨⟨⟩, made, ran, warned⟩ := Action.returns_bind.mp returned
  have asked := (Routine.run_ask_iff (.makeDirectories directory)).mp (Action.returns_on.mp ran)
  have silent := World.events_of_perform (.makeDirectories directory) host before
  rw [asked] at silent
  cases (run_tellAll _ host made).symm.trans (Action.returns_lift.mp warned)
  exact congrArg (· ++ _) (silent.trans (List.append_nil _))

/-- What is found out about the outputs of some paths. -/
structure FindsShared (directory : Path) (paths : List Path) : Prop where
  /-- In the order of the second sources. -/
  shared : sharedOutputs directory paths = eachAfter (secondClaim directory) paths
  shared_iff : ∀ output : Path, (∃ shared ∈ sharedOutputs directory paths, output.same shared = true) ↔
    2 ≤ claimants directory paths output
  once : (sharedOutputs directory paths).Pairwise fun one other => one.same other = false
  /-- With the earliest source. -/
  clashes : Clash.all directory paths = eachAfter (laterClaim directory) paths
  count : (Clash.all directory paths).length =
    paths.length - (paths.map fun path => (directory.baseline path).components).toFinset.card
  warned : ∀ (host : Host) before after, Returns host (Colorizer.prepare paths (some directory)) before () after →
    after.events = before.events ++ (Clash.all directory paths).map fun clash =>
      Event.sharedOutput clash.first clash.second clash.output
  none_iff : sharedOutputs directory paths = [] ↔
    paths.Pairwise fun one other => (directory.baseline one).same (directory.baseline other) = false

/-- Nothing shared goes unnoticed; and where nothing is shared, no capture is lost. -/
theorem shared_outputs_found (directory : Path) (paths : List Path) : FindsShared directory paths ∧
    (sharedOutputs directory paths = [] → ∀ (colorizer : Colorizer) host before report after,
      before.files.Nested →
      (colorizer.captureMany paths (some directory)).run.Ends host before (some (.ok report)) after →
      Delivered colorizer.format directory paths before.files after.files report) := by
  refine ⟨⟨sharedOutputs_eq directory paths, fun output => ?_, pairwise_sharedOutputs directory paths,
    Clash.all_eq directory paths, ?_, fun host before after => Colorizer.events_of_prepare,
    sharedOutputs_eq_nil_iff⟩, fun none colorizer host before report after nested ends =>
      colorizer.delivered_of_batch nested none ends⟩
  · rw [← any_sharedOutputs, List.any_eq_true]
  · have all := Clash.length_all directory paths
    omega

open SnapshotRunner (oneTheme pair plain sources)

/-- Two sources with different outputs. -/
theorem shared_outputs_found_pair : sharedOutputs ⟨"results"⟩ pair = [] ∧ sources.Nested ∧ ∃ report after,
    ((plain ⟨"results"⟩).colorizer.captureMany pair (some ⟨"results"⟩)).run.Ends (.quiet oneTheme)
      (.start sources) (some (.ok report)) after ∧
    report.captured = [(⟨"x.js"⟩, oneTheme), (⟨"y.js"⟩, oneTheme)] ∧
    Delivered .compact ⟨"results"⟩ pair sources after.files report := by
  have none : sharedOutputs ⟨"results"⟩ pair = [] := rfl
  have nested : (World.start sources).files.Nested :=
    (FileSystem.isTree_of_nodes (by decide) (by decide) (by decide)).rooted.nested
  have ready : Returns (.quiet oneTheme) (Colorizer.prepare pair (some ⟨"results"⟩)) (.start sources) ()
      ((Colorizer.prepare pair (some ⟨"results"⟩)).run.run (.quiet oneTheme) (.start sources)).2 := rfl
  have grouped : [[⟨"x.js"⟩], [⟨"y.js"⟩]] = groups (Host.quiet oneTheme).helpers pair := by
    simp [groups, pair, Host.quiet]
  have batched := (plain ⟨"results"⟩).colorizer.captureMany_of_gathers ready
    (gathers_workGroups _ _ _ _)
  obtain ⟨after, ends, -⟩ := batched
  refine ⟨none, nested, _, after, ends, ?_, (shared_outputs_found _ _).2 none _ _ _ _ _ nested ends⟩
  rw [← grouped]
  decide +kernel

end Colorization
