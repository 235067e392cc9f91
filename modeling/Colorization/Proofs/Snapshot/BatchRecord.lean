import Colorization.Proofs.Batch
import Colorization.Proofs.Snapshot.Record
import Colorization.Proofs.Token.Sharing

/-! What a batch leaves on the disk, however its workers take turns: the baselines of the captures
that its report tells of. -/
namespace Colorization

open FileSystem (Shelf Hand LinkFree Stocked)

/-- The baselines of different fixtures are different paths. -/
def DistinctBaselines (results : Path) (fixtures : Set Path) : Prop :=
  fixtures.Pairwise fun one other => (results.baseline one).same (results.baseline other) = false

variable {results fixture other : Path} {fixtures : Set Path} {first : FileSystem} {host : Host}
  {hand : Hand} {paths : List Path}

theorem DistinctBaselines.eq_of_name (distinct : DistinctBaselines results fixtures)
    (member : fixture ∈ fixtures) (named : fixture.fileName? = some name) (member' : other ∈ fixtures)
    (named' : other.fileName? = some name') (same : fixture.baselineName = other.baselineName) :
    fixture = other := by
  by_contra differs
  have apart : (results.baseline fixture).same (results.baseline other) = false :=
    distinct member member' differs
  rw [Path.baseline_same_of_name named named' same] at apart
  cases apart

/-- The results of a batch, and the directories that it makes. -/
def batchShelf (results : Path) (fixtures : Set Path) (first : FileSystem) : Shelf where
  results
  fixtures fixture := fixture ∈ fixtures ∧ ∃ name, fixture.fileName? = some name
  ground _ files := Equipped results first files

theorem sound_batchShelf (distinct : DistinctBaselines results fixtures) (linkFree : first.LinkFree) :
    (batchShelf results fixtures first).Sound where
  named _ member := member.2
  distinct := by
    rintro fixture other ⟨member, name, named⟩ ⟨member', name', named'⟩ same
    exact distinct.eq_of_name member named member' named' same
  way ground _ _ equipped _ _ _ _ target := (Equipped.grows equipped).linkFree linkFree _ target
  made files equipped _ := Equipped.trans equipped (.made (by simp [Shelf.directory, batchShelf]) files)
  unmade files _ equipped _ := Equipped.trans equipped (.made (by simp [Shelf.directory, batchShelf]) files)

/-- A worker has put its capture in its place, or nothing. -/
def BatchEnd (format : Format) : Option (Except Failure Capture) → Hand → Prop
  | some (.ok capture), hand => ∃ mode, hand = .placed mode (capture.serialize format).toUTF8
  | _, hand => hand = .away ∨ hand = .inside

theorem SaveEnd.away_or_inside {shelf : Shelf} {failure : Failure}
    (ends : SaveEnd shelf host fixture bytes (.error failure) hand) :
    hand = .away ∨ hand = .inside := by
  cases ends with
  | broken _ was => exact was
  | noDirectory => exact .inl rfl
  | noTemporary | notPlaced => exact .inr rfl

theorem SaveEnd.isPlaced {shelf : Shelf} (ends : SaveEnd shelf host fixture bytes (.ok ()) hand) :
    ∃ mode, hand = .placed mode bytes := by
  cases ends with
  | placed => exact ⟨_, rfl⟩

theorem Colorizer.keeps_captureToFile (distinct : DistinctBaselines results fixtures)
    (linkFree : first.LinkFree) (rooted : first.Rooted) (colorizer : Colorizer) (member : fixture ∈ fixtures) :
    (colorizer.captureToFile fixture (results.baseline fixture)).run.Keeps host
      (batchShelf results fixtures first).Inv fixture (BatchEnd colorizer.format) .away := by
  have allRooted : ∀ hands files, (batchShelf results fixtures first).Inv hands files → files.Rooted :=
    fun hands files inv => inv.rooted fun _ _ equipped => Equipped.rooted equipped rooted
  refine Action.keeps_bind ((colorizer.keeps_capture allRooted fixture .away).mono ?_)
  rintro ended _ ⟨rfl, named⟩
  match ended with
  | none => exact .inl rfl
  | some (.error failure) => exact .inl rfl
  | some (.ok capture) =>
    have saved : (capture.save (results.baseline fixture) colorizer.format).run.Keeps host
        (batchShelf results fixtures first).Inv fixture _ .away :=
      Capture.keeps_save (sound_batchShelf distinct linkFree) ⟨member, named capture rfl⟩ capture
        colorizer.format
    refine Action.keeps_bind (saved.mono ?_)
    rintro _ hand ⟨failure | ⟨⟨⟩⟩, rfl, ends⟩
    · exact ends.away_or_inside
    · exact ends.isPlaced

theorem resultOf_eq_ok_iff {capture : Capture} {ended : Option (Except Failure Capture)} :
    (Host.resultOf fixture ended).2 = .ok capture ↔ ended = some (.ok capture) := by
  match ended with
  | none | some (.error _) | some (.ok _) => simp [Host.resultOf]

variable {ended : Path → Option (Except Failure Capture)} {capture : Capture} {hands : Path → Hand}
  {format : Format} {files : FileSystem}

/-- The captures of the report are those that the workers ended with. -/
theorem lookup_report (distinct : DistinctBaselines results fixtures) (once : paths.Nodup)
    (among : ∀ path ∈ paths, path ∈ fixtures)
    (named : ∀ path ∈ paths, ∀ capture, ended path = some (.ok capture) →
      ∃ name, path.fileName? = some name) :
    (BatchReport.ofResults (paths.map fun path => Host.resultOf path (ended path))).captured.lookup fixture =
      some capture ↔ fixture ∈ paths ∧ ended fixture = some (.ok capture) := by
  rw [BatchReport.lookup_captured, List.mem_map]
  · constructor
    · rintro ⟨path, member, same⟩
      obtain ⟨rfl, ends⟩ := Prod.mk.inj same
      exact ⟨member, resultOf_eq_ok_iff.mp ends⟩
    · rintro ⟨member, ends⟩
      exact ⟨fixture, member, Prod.ext rfl (resultOf_eq_ok_iff.mpr ends)⟩
  · refine List.pairwise_map.mpr (once.imp_of_mem ?_)
    intro one other member member' differs first second isFirst isSecond
    obtain ⟨name, isName⟩ := named one member first (resultOf_eq_ok_iff.mp isFirst)
    obtain ⟨name', isName'⟩ := named other member' second (resultOf_eq_ok_iff.mp isSecond)
    by_contra alike
    have alike : other.same one = true := Bool.eq_true_of_not_eq_false alike
    have names : one.baselineName = other.baselineName := by
      rw [Path.baselineName_eq isName, Path.baselineName_eq isName']
      have same := Path.fileName?_of_same alike
      rw [isName, isName'] at same
      rw [Option.some.inj same]
    exact differs (distinct.eq_of_name (among one member) isName (among other member') isName' names)

section Accepted

variable {accepted : Path → Option Capture} (ends : ∀ path ∈ paths, BatchEnd format (ended path) (hands path))
  (isAccepted : ∀ {path capture}, accepted path = some capture ↔
    path ∈ paths ∧ ended path = some (.ok capture))

include ends isAccepted

theorem placed_of_accepted (taken : accepted fixture = some capture) :
    ∃ mode, hands fixture = .placed mode (capture.serialize format).toUTF8 := by
  obtain ⟨member, isEnd⟩ := isAccepted.mp taken
  have ended := ends fixture member
  rw [isEnd] at ended
  exact ended

/-- No worker has left a file but the baseline of what was accepted. -/
theorem names_subset_acceptedNames (others : ∀ path ∉ paths, hands path = .away) (folder : Location) :
    FileSystem.Busy.names hands folder ⊆ acceptedNames accepted := by
  rintro name ⟨path, isOwn⟩
  by_cases member : path ∈ paths
  · have ended' := ends path member
    match isEnd : ended path, ended' with
    | some (.ok capture), ⟨mode, holds⟩ =>
      rw [holds] at isOwn
      exact ⟨path, capture, isAccepted.mpr ⟨member, isEnd⟩, by simpa [Hand.location?] using isOwn⟩
    | none, idle | some (.error _), idle =>
      rcases idle with holds | holds
      all_goals
        rw [holds] at isOwn
        cases isOwn
  · rw [others path member] at isOwn
    cases isOwn

/-- What the workers have put in their places is what was accepted. -/
theorem recorded_of_hands (distinct : DistinctBaselines results fixtures) (linkFree : first.LinkFree)
    (inv : (batchShelf results fixtures first).Inv hands files)
    (others : ∀ path ∉ paths, hands path = .away) : Recorded results fixtures first files accepted := by
  have stocked : ∃ ground, Equipped results first ground ∧ Stocked (acceptedNames accepted) ground files := by
    rcases inv.state with ⟨-, equipped⟩ | ⟨-, ground, folder, mode, busy⟩
    · exact ⟨files, equipped, .refl _ _⟩
    · exact ⟨ground, busy.allowed, busy.stocked.mono (names_subset_acceptedNames ends isAccepted others folder)⟩
  refine ⟨stocked, fun {path capture} taken => ?_, fun {path capture} taken => ?_⟩
  all_goals
    obtain ⟨mode, holds⟩ := placed_of_accepted ends isAccepted taken
    have notAway : hands path ≠ .away := by
      rw [holds]
      nofun
  · exact inv.crew path notAway
  · obtain ⟨ground, folder, mode', busy⟩ := inv.busy notAway
    have found := inv.find_placed (sound_batchShelf distinct linkFree) busy holds
    have readBack : files.read (results.baseline path) = .ok (capture.serialize format).toUTF8 :=
      FileSystem.read_eq_ok_iff.mpr ⟨_, _, found, nofun, (Content.bytes_ofBytes _).symm⟩
    exact FileSystem.holds_of_read readBack

end Accepted

namespace Colorizer

variable {colorizer : Colorizer} {before after : World}

/-- A batch with a report has accepted the captures that the report tells of. -/
theorem recorded_of_batch (distinct : DistinctBaselines results fixtures)
    (linkFree : before.files.LinkFree) (rooted : before.files.Rooted) (once : paths.Nodup)
    (among : ∀ path ∈ paths, path ∈ fixtures)
    (ends : (colorizer.captureMany paths (some results)).run.Ends host before (some (.ok report)) after) :
    Recorded results fixtures before.files after.files fun fixture => report.captured.lookup fixture := by
  rcases ends_captureMany ends with ⟨failure, ⟨⟩, -⟩ | ⟨entries, prepared, gathered, made, gathers, same, left⟩
  cases same
  have flat := flatten_groups host.helpers paths
  have equipped : Equipped results before.files prepared.files := by
    rw [made]
    exact .made List.mem_cons_self _
  have idle : (batchShelf results fixtures before.files).Inv (fun _ => .away) prepared.files :=
    ⟨fun _ notAway => absurd rfl notAway, .inl ⟨fun _ => rfl, equipped⟩⟩
  obtain ⟨hands, inv, entered, others⟩ := gathers.keeps (flat.symm ▸ once) idle fun fixture member =>
    keeps_captureToFile distinct linkFree rooted colorizer (among fixture (flat ▸ member))
  rw [flat] at entered others
  obtain ⟨ended, rfl, each⟩ := exists_map_resultOf once entered
  rw [left]
  refine recorded_of_hands each (lookup_report distinct once among ?_) distinct linkFree inv others
  intro path member capture isEnd
  have ends := each path member
  rw [isEnd] at ends
  obtain ⟨mode, holds⟩ := ends
  exact (inv.crew path (by rw [holds]; nofun)).2

/-- A batch without a report has accepted nothing. -/
theorem recorded_of_failed_batch
    (ends : (colorizer.captureMany paths (some results)).run.Ends host before result after)
    (failed : ∀ report, result ≠ some (.ok report)) :
    Recorded results fixtures before.files after.files fun _ => none := by
  refine recorded_none ?_
  rcases ends_captureMany ends with ⟨failure, -, same | made⟩ | ⟨_, _, _, -, -, reported, -⟩
  · rw [same]
    exact .refl
  · rw [made]
    exact .made List.mem_cons_self _
  · exact absurd reported (failed _)

end Colorizer

end Colorization
