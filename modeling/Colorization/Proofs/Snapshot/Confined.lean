import Colorization.Proofs.CommandLine.Writing
import Colorization.Proofs.Routine.Exchange

/-! Baselines are directly in their directory, under other names than the files that they belong to.
The baseline of a path without a file name could be anywhere; but such a path is no source, so nothing
is ever written for it. -/
namespace Colorization

open Colorization.Action (Returns Fails)
open FileSystem (Charter Nested)

variable {host : Host} {before after : World} {directory path output : Path} {name : String}

/-- What there is to the baseline of a file. -/
structure Confined (directory path : Path) (name : String) : Prop where
  child : (directory.baseline path).components = directory.components ++ [.name path.baselineName]
  suffix : ".json".toList <:+ path.baselineName.toList
  length : path.baselineName.length = name.length + 5
  differs : path.baselineName ≠ name
  /-- A write puts it into what the directory leads to, or into the working directory if there is none. -/
  entry : ∀ (files : FileSystem) folder mode,
    files.find directory = .ok (folder, .directory mode) ∨ directory.text = "" ∧ folder = files.working →
    ∀ entry, files.entry? (directory.baseline path) = .ok (some entry) →
      entry = ⟨folder ++ [path.baselineName], false⟩
  /-- The entry of the file is another one. -/
  own : ∀ (files : FileSystem) entry entry', files.entry? path = .ok (some entry) →
    files.entry? (directory.baseline path) = .ok (some entry') → entry.location ≠ entry'.location

section Named

variable {files : FileSystem} {segment : Segment} {folder : Location}

theorem FileSystem.entry_of_join (plain : Path.Plain segment)
    (found : files.find directory = .ok (folder, .directory mode) ∨ directory.text = "" ∧ folder = files.working)
    (entered : files.entry? (directory.join ⟨String.ofList segment⟩) = .ok (some entry)) :
    entry = ⟨folder ++ [String.ofList segment], false⟩ := by
  obtain ⟨location, slash⟩ := entry
  obtain ⟨-, folder', name', named, ends, rfl⟩ := entry?_eq_ok_iff.mp entered
  rcases found with found | ⟨empty, rfl⟩
  · obtain ⟨rfl, rfl, rfl⟩ := ends.unique (endsIn_join found plain.noSlash) named.notEmpty plain.notEmpty
    rfl
  · have relative := Path.isAbsolute_of_not_mem plain.noSlash
    obtain ⟨above, blanks, used, mode, text, -, rfl, -, leads⟩ := ends
    have single : directory.join ⟨String.ofList segment⟩ = ⟨String.ofList segment⟩ := by
      simp [Path.join, relative, empty]
    rw [single] at text leads
    rw [String.toList_ofList, Path.segments_of_not_mem plain.noSlash] at text
    -- the name is all of the path, so the walk to its folder has no steps
    cases above with
    | nil =>
      obtain ⟨rfl, rfl⟩ := List.cons.inj text
      cases leads
      simp [FileSystem.start, relative]
    | cons first above =>
      obtain ⟨-, none⟩ := List.cons.inj text
      exact absurd none.symm (by simp)

theorem confined (named : path.fileName? = some name) (directory : Path) : Confined directory path name where
  child := by rw [Path.components_baseline named, Path.baselineName_eq named]
  suffix := path.suffix_baselineName
  length := Path.length_baselineName named
  differs same := by
    have length := Path.length_baselineName named
    rw [same] at length
    omega
  entry files folder mode found entry entered := by
    rw [Path.baseline_eq named] at entered
    rw [Path.baselineName_eq named]
    exact FileSystem.entry_of_join (Path.plain_of_fileName? named).baselineSegment found entered
  own files entry entry' entered entered' together := by
    obtain ⟨folder, name', named', inside⟩ := FileSystem.fileName?_of_entry? entered
    cases named.symm.trans named'
    rw [Path.baseline_eq named] at entered'
    have last := FileSystem.getLast?_of_entry?_join (Path.plain_of_fileName? named).baselineSegment entered'
    rw [← together, inside, List.getLast?_concat, ← Path.baselineName_eq named] at last
    have length := Path.length_baselineName named
    rw [← Option.some.inj last] at length
    omega

end Named

/-- The action first looks at the path, and fails if there is nothing or a directory. -/
def Action.LooksAt (path : Path) (action : Action α) : Prop :=
  ∃ next, action.run = .step (.stat path) next ∧
    (∀ error, next (.error error) = .done (.error (.capture path (.ofSystemError error)))) ∧
    ∀ stat : Stat, stat.kind = .directory → next (.ok stat) = .done (.error (.capture path .isDirectory))

theorem Action.LooksAt.bind {action : Action α} (looks : action.LooksAt path) (rest : α → Action β) :
    (action >>= rest).LooksAt path := by
  obtain ⟨next, isStep, refused, folder⟩ := looks
  have ended : ∀ {routine : Routine (Except Failure α)} {failure}, routine = .done (.error failure) →
      routine >>= ExceptT.bindCont rest = .done (.error failure) := by
    rintro _ _ rfl
    rfl
  refine ⟨fun answer => next answer >>= ExceptT.bindCont rest, ?_, fun error => ended (refused error),
    fun stat isFolder => ended (folder stat isFolder)⟩
  exact congrArg (· >>= ExceptT.bindCont rest) isStep

theorem looksAt_validateSource (path : Path) : (validateSource path).LooksAt path := by
  refine ⟨_, rfl, fun error => rfl, fun stat isFolder => ?_⟩
  obtain ⟨kind, mode, size⟩ := stat
  cases isFolder
  rfl

theorem Colorizer.looksAt_capture (colorizer : Colorizer) (path : Path) : (colorizer.capture path).LooksAt path :=
  (looksAt_validateSource path).bind _

theorem Colorizer.looksAt_captureInto (colorizer : Colorizer) (outDir : Option Path) (path : Path) :
    (colorizer.captureInto outDir path).LooksAt path := by
  cases outDir with
  | none => exact colorizer.looksAt_capture path
  | some directory => exact (colorizer.looksAt_capture path).bind _

theorem SnapshotRunner.looksAt_run (runner : SnapshotRunner) (mode : Mode) (path : Path) :
    (runner.run mode path).LooksAt path :=
  (runner.colorizer.looksAt_capture path).bind _

/-- What would only look. -/
def lookOnly (path : Path) : Action α := do
  match ← Routine.stat path with
  | .error error => throw (.capture path (.ofSystemError error))
  | .ok _ => throw (.capture path .isDirectory)

theorem still_lookOnly (path : Path) : (lookOnly path : Action α).Still := by
  refine .bind (Action.still_lift (Routine.still_ask trivial)) fun answer => ?_
  cases answer <;> exact Action.still_throw _

theorem fails_lookOnly (path : Path) (host : Host) (before : World) :
    ∃ fault, Fails host (lookOnly path : Action α) before (some (.capture path fault)) before.tick := by
  have ticked : ((Request.stat path).perform host before).2 = before.tick := by
    rw [Request.perform, World.look]
    split <;> rfl
  rcases asked : (Request.stat path).perform host before with ⟨error | answer, after⟩
  all_goals rw [asked] at ticked
  · refine ⟨.ofSystemError error, Action.fails_request_bind.mpr ?_⟩
    rw [asked]
    exact Action.fails_throw.mpr ⟨rfl, ticked⟩
  · refine ⟨.isDirectory, Action.fails_request_bind.mpr ?_⟩
    rw [asked]
    exact Action.fails_throw.mpr ⟨rfl, ticked⟩

/-- Work that only looks at paths without a file name. -/
def sparing (work : Path → Action α) (path : Path) : Action α :=
  match path.fileName? with
  | some _ => work path
  | none => lookOnly path

/-- Without a file name there is nothing but a directory to be seen. -/
theorem FileSystem.stat_nameless {files : FileSystem} (nested : files.Nested) (nameless : path.fileName? = none)
    (seen : files.stat path = .ok answer) : answer.kind = .directory := by
  by_contra notFolder
  obtain ⟨name, named⟩ := named_of_stat nested seen notFolder
  cases nameless.symm.trans named

theorem Action.LooksAt.tallies {action : Action α} (looks : action.LooksAt path) (nameless : path.fileName? = none) :
    action.run.Tallies host Nested (lookOnly path : Action α).run := by
  obtain ⟨next, isStep, refused, folder⟩ := looks
  rw [isStep]
  refine .step fun world nested => ?_
  rcases asked : world.look host (fun files => files.stat path) with ⟨error | answer, after⟩
  · rw [Request.perform, asked, refused]
    rfl
  · obtain ⟨-, seen, -⟩ := World.look_eq_ok_iff.mp asked
    rw [Request.perform, asked, folder answer (FileSystem.stat_nameless nested nameless seen)]
    rfl

theorem Action.LooksAt.fails {action : Action α} (looks : action.LooksAt path) (nested : before.files.Nested)
    (nameless : path.fileName? = none) :
    ∃ fault, Fails host action before (some (.capture path fault)) before.tick := by
  obtain ⟨fault, failed⟩ := fails_lookOnly (α := α) path host before
  exact ⟨fault, ((looks.tallies nameless).run (still_lookOnly path) nested).trans failed⟩

/-- Nothing is written for a path without a file name: all that is done is to look at it. -/
structure Barren (host : Host) (before : World) (directory path : Path) : Prop where
  capture : ∀ colorizer : Colorizer, ∃ fault,
    Fails host (colorizer.capture path) before (some (.capture path fault)) before.tick
  captureInto : ∀ colorizer : Colorizer, ∃ fault,
    Fails host (colorizer.captureInto (some directory) path) before (some (.capture path fault)) before.tick
  run : ∀ (colorizer : Colorizer) mode, ∃ fault,
    Fails host (SnapshotRunner.run ⟨colorizer, directory⟩ mode path) before (some (.capture path fault)) before.tick

theorem barren (nested : before.files.Nested) (nameless : path.fileName? = none) (directory : Path) :
    Barren host before directory path where
  capture colorizer := (colorizer.looksAt_capture path).fails nested nameless
  captureInto colorizer := (colorizer.looksAt_captureInto _ path).fails nested nameless
  run colorizer mode := (SnapshotRunner.looksAt_run ⟨colorizer, directory⟩ mode path).fails nested nameless

/-- Nothing is written for the paths without a file name among others. -/
structure Spares (host : Host) (work : Path → Action α) (directory : Path) (paths : List Path) (before : World)
    (results : List (Path × Except Failure α)) (after : World) : Prop where
  /-- All goes as if these paths were only looked at. -/
  gathers : host.Gathers (sparing work) (groups host.helpers paths) before results after
  failed : ∀ entry ∈ results, entry.1.fileName? = none → ∃ fault, entry.2 = .error (.capture entry.1 fault)
  /-- The files that are written belong to the other paths. -/
  observed : Charter.Observed ⟨before.files, fun output => ∃ path ∈ paths, (∃ name, path.fileName? = some name) ∧
    output = directory.baseline path, host.helpers = 0⟩ after.files

section Groups

variable {work : Path → Action α} {paths : List Path} {charter : Charter} {key : Nat}

theorem tallies_sparing (looks : ∀ path, (work path).LooksAt path) (path : Path) :
    (work path).run.Tallies host Nested (sparing work path).run := by
  unfold sparing
  split
  · rfl
  next nameless => exact (looks path).tallies nameless

theorem idles_lookOnly (path : Path) : (lookOnly path : Action α).Idles host charter.Followed none key
    fun ended => ∃ fault, ended = some (.error (.capture path fault)) := by
  refine Action.keeps_bind (Action.keeps_lift (Routine.keeps_still (.stat path) trivial fun _ world _ _ => ?_))
  cases ((Request.stat path).perform host world).1 with
  | error error => exact ⟨rfl, _, rfl⟩
  | ok => exact ⟨rfl, _, rfl⟩

/-- Only for a file name has the work to be held to the charter. -/
theorem idles_sparing (abides : ∀ name, path.fileName? = some name → charter.Abides host key (work path)) :
    (sparing work path).Idles host charter.Followed none key fun ended =>
      path.fileName? = none → ∃ fault, ended = some (.error (.capture path fault)) := by
  unfold sparing
  split
  next name named =>
    exact Routine.Keeps.mono (abides name named) fun _ _ same => ⟨same, fun nameless => by
      cases nameless.symm.trans named⟩
  next => exact Routine.Keeps.mono (idles_lookOnly path) fun _ _ promised => promised.imp_right fun fault _ => fault

theorem spares (nested : before.files.Nested) (looks : ∀ path, (work path).LooksAt path)
    (abides : ∀ (charter : Charter) key path, (charter.alone → key = 0) →
      charter.paths (directory.baseline path) → charter.Abides host key (work path))
    (gathers : host.Gathers work (groups host.helpers paths) before results after) :
    Spares host work directory paths before results after := by
  have alone : ∀ {group : List Path} {key}, group ∈ groups host.helpers paths → key < group.length →
      host.helpers = 0 → key = 0 := fun isGroup less alone => by
    have few := length_le_of_mem_groups isGroup
    omega
  have spared : host.Gathers (sparing work) (groups host.helpers paths) before results after := by
    let charter : Charter := ⟨before.files, fun _ => True, host.helpers = 0⟩
    have keeps : ∀ group ∈ groups host.helpers paths, ∀ path ∈ group, ∀ key < group.length,
        (work path).run.Keeps host charter.Followed key (fun _ hand => hand = none) none :=
      fun _ isGroup path _ key less => abides charter key path (alone isGroup less) trivial
    exact .exchange (fun _ _ followed => followed.nested nested) gathers keeps (tallies_sparing looks)
      (.start (.refl _))
  have inPaths : ∀ {group : List Path} {path}, group ∈ groups host.helpers paths → path ∈ group → path ∈ paths :=
    fun isGroup member => flatten_groups host.helpers paths ▸ List.mem_flatten.mpr ⟨_, isGroup, member⟩
  let charter : Charter := ⟨before.files, fun output => ∃ path ∈ paths, (∃ name, path.fileName? = some name) ∧
    output = directory.baseline path, host.helpers = 0⟩
  have idles : ∀ group ∈ groups host.helpers paths, ∀ path ∈ group, ∀ key < group.length,
      (sparing work path).Idles host charter.Followed none key fun ended =>
        path.fileName? = none → ∃ fault, ended = some (.error (.capture path fault)) :=
    fun _ isGroup path member key less => idles_sparing fun name named =>
      abides charter key path (alone isGroup less) ⟨path, inPaths isGroup member, ⟨name, named⟩, rfl⟩
  obtain ⟨followed, entries⟩ := spared.idles idles (.start (.refl _))
  refine ⟨spared, fun entry member nameless => ?_, followed.observed⟩
  obtain ⟨i, isThere⟩ := List.mem_iff_getElem?.mp member
  obtain ⟨path, -, ended, rfl, promised⟩ := getElem?_of_forall₂ entries.flip isThere
  obtain ⟨fault, rfl⟩ := promised nameless
  exact ⟨fault, rfl⟩

end Groups

/-- Baselines are in their directory, and there are none of paths without a file name. -/
structure Contained (host : Host) (before : World) (directory : Path) : Prop where
  named : ∀ path name, path.fileName? = some name → Confined directory path name
  nameless : ∀ path, path.fileName? = none → Barren host before directory path
  suite : ∀ (colorizer : Colorizer) fixtures mode result after,
    (SnapshotRunner.runSuite ⟨colorizer, directory⟩ fixtures mode).Ends host before result after →
    ∃ results gathered, result = some ⟨results⟩ ∧ after.files = gathered.files ∧
      Spares host (SnapshotRunner.run ⟨colorizer, directory⟩ mode) directory fixtures before results gathered
  /-- Without the directory there are no workers. -/
  batch : ∀ (colorizer : Colorizer) paths result after,
    (colorizer.captureMany paths (some directory)).run.Ends host before result after →
    (∃ failure, result = some (.error failure) ∧
      (after.files = before.files ∨ after.files = (before.files.makeDirectories directory).2)) ∨
    ∃ results prepared gathered, prepared.files = (before.files.makeDirectories directory).2 ∧
      result = some (.ok (.ofResults results)) ∧ after.files = gathered.files ∧
      Spares host (colorizer.captureInto (some directory)) directory paths prepared results gathered

/-- Whatever directory is given and whichever paths, in a file system in which what is above a
directory is one. -/
theorem baselines_contained (nested : before.files.Nested) (directory : Path) : Contained host before directory where
  named path name isName := confined isName directory
  nameless path nameless := barren nested nameless directory
  suite colorizer fixtures mode result after ends := by
    obtain ⟨results, gathered, gathers, told, left⟩ := SnapshotRunner.gathers_of_ends ends
    refine ⟨results, gathered, told, left, spares nested (SnapshotRunner.looksAt_run _ mode) ?_ gathers⟩
    let runner : SnapshotRunner := ⟨colorizer, directory⟩
    have abides : ∀ (charter : Charter) key path, (charter.alone → key = 0) →
        charter.paths (runner.baselineOf path) → charter.Abides host key (runner.run mode path) :=
      fun _ _ _ first owned => Charter.abides_run first owned mode
    exact abides
  batch colorizer paths result after ends := by
    rcases Colorizer.ends_captureMany ends with failed | ⟨results, prepared, gathered, made, gathers, told, left⟩
    · exact .inl failed
    · have nested' : prepared.files.Nested := made ▸ (FileSystem.branches_makeDirectories ..).nested nested
      refine .inr ⟨results, prepared, gathered, made, told, left,
        spares nested' (colorizer.looksAt_captureInto _) ?_ gathers⟩
      exact fun charter key path first owned => Charter.abides_captureToFile first owned colorizer path

open SnapshotRunner (oneTheme plain sources)

/-- A suite of a file and of the directory above. -/
theorem baselines_contained_sources : sources.Nested ∧ Confined ⟨"results"⟩ ⟨"x.js"⟩ "x.js" ∧
    Barren (.quiet oneTheme) (.start sources) ⟨"results"⟩ ⟨".."⟩ ∧ ∃ results after,
    (SnapshotRunner.runSuite (plain ⟨"results"⟩) [⟨"x.js"⟩, ⟨".."⟩] .check).Ends (.quiet oneTheme)
      (.start sources) (some ⟨results⟩) after ∧
    ∃ gathered, after.files = gathered.files ∧
      Spares (.quiet oneTheme) ((plain ⟨"results"⟩).run .check) ⟨"results"⟩ [⟨"x.js"⟩, ⟨".."⟩]
        (.start sources) results gathered := by
  have nested : (World.start sources).files.Nested :=
    (FileSystem.isTree_of_nodes (by decide) (by decide) (by decide)).rooted.nested
  have contained : Contained (.quiet oneTheme) (.start sources) ⟨"results"⟩ :=
    baselines_contained nested ⟨"results"⟩
  have ends := ((plain ⟨"results"⟩).runSuite [⟨"x.js"⟩, ⟨".."⟩] .check).ends_run
    (.quiet oneTheme) (.start sources)
  obtain ⟨results, gathered, told, left, spares⟩ := contained.suite _ _ _ _ _ ends
  refine ⟨nested, contained.named _ _ (by decide), contained.nameless _ (by decide), results, _, ?_, gathered,
    left, spares⟩
  rw [← told]
  exact ends

/-- The root has no file name, and its baseline would not be in the directory. -/
example : (⟨"/"⟩ : Path).fileName? = none ∧ (⟨"results"⟩ : Path).baseline ⟨"/"⟩ = ⟨"/.json"⟩ := by decide

end Colorization
