import Colorization.Proofs.Snapshot.Independence

/-! The run of a fixture among others that are independent of it. How it ends is settled by the
files that were there at first. -/
namespace Colorization

open FileSystem (Shelf Hand Busy Nameable temporaryName temporaryPath fileMode)
open Colorization.Action (Momentary momentary_of_step Settled settled_pure settled_throw settled_panic settled_request
  settled_on settled_tell)

theorem FileSystem.stat_congr {files other : FileSystem} {path : Path}
    (same : other.find path = files.find path) : other.stat path = files.stat path := by
  simp only [stat, same]

theorem FileSystem.read_congr {files other : FileSystem} {path : Path}
    (same : other.find path = files.find path) : other.read path = files.read path := by
  simp only [read, same]

/-- What a tokenizer gives it has for the files of that moment. -/
theorem Tokenizer.momentary_tokens {host : Host} (reliable : host.Reliable) (tokenizer : Tokenizer)
    {shelf : Shelf} {path : Path} {hand : Hand}
    (moment : ∃ hands world, shelf.Inv hands (World.files world) ∧ hands path = hand) :
    Momentary host shelf.Inv path (tokenizer.tokens path) hand := by
  cases tokenizer with
  | inProcess =>
    refine momentary_of_step (.tokenize path) rfl trivial fun answer => ?_
    cases answer with
    | tokens capture => exact ⟨_, .done⟩
    | failed failure => exact ⟨_, .done⟩
    | panicked => exact ⟨_, .panic⟩
  | command program args =>
    have announced : Settled host shelf.Inv path (fun _ hand' => hand' = hand)
        (liftM (Routine.tell (.running program path))) hand := settled_tell _ hand
    refine announced.momentary_bind (Action.still_lift (Routine.still_ask trivial)) reliable moment
      fun _ => ?_
    refine momentary_of_step (.execute program (args ++ [path.text])) rfl trivial fun answer => ?_
    cases answer with
    | error error => exact ⟨_, .done⟩
    | ok finished => exact ⟨_, .done⟩

/-- A tokenizer gives a path the same tokens as long as what it leads to is there. -/
theorem Tokenizer.settled_tokens {host : Host} (faithful : host.Faithful) (tokenizer : Tokenizer)
    {shelf : Shelf} {path : Path} {hand : Hand} {files : FileSystem}
    (same : ∀ hands after, shelf.Inv hands after → hands path = hand → after.find path = files.find path) :
    Settled host shelf.Inv path (fun _ hand' => hand' = hand) (tokenizer.tokens path) hand := by
  cases tokenizer with
  | inProcess =>
    have alike : ∀ hands world, shelf.Inv hands world.files → hands path = hand →
        (Request.perform host (.tokenize path) world).1 = host.tokenize path := fun _ _ _ _ => rfl
    refine (settled_request (.tokenize path) trivial alike).bind ?_
    rintro answer _ ⟨-, rfl⟩
    cases answer with
    | tokens capture => exact settled_pure rfl
    | failed failure => exact settled_throw _
    | panicked => exact settled_panic
  | command program args =>
    refine (settled_tell _ hand).bind ?_
    intro _ hand' isHand
    subst isHand
    have alike : ∀ hands world, shelf.Inv hands world.files → hands path = hand' →
        (Request.perform host (.execute program (args ++ [path.text])) world).1 =
          host.execute files program (args ++ [path.text]) :=
      fun hands world inv mine => faithful _ _ _ _ _ (same hands world.files inv mine)
    refine (settled_request (.execute ..) trivial alike).bind ?_
    rintro answer _ ⟨-, rfl⟩
    cases answer with
    | error error => exact settled_throw _
    | ok finished =>
      dsimp only
      generalize finished.capture = parsed
      cases parsed with
      | error fault => exact settled_throw (.capture path fault)
      | ok capture => exact settled_pure rfl

namespace Independent

variable {host : Host} {results : Path} {fixtures : List Path} {files : FileSystem} {fixture : Path}

section Looking

variable (independent : Independent results fixtures files) (member : fixture ∈ fixtures)
  (reliable : host.Reliable)

include independent member reliable

theorem settled_stat {path : Path} (isOwn : path ∈ [fixture, results.baseline fixture]) :
    Settled host (shelf results fixtures files).Inv fixture
      (fun answer hand => answer = files.stat path ∧ hand = .away) (liftM (Routine.stat path)) .away := by
  refine settled_request (.stat path) trivial fun hands world inv away => ?_
  refine (reliable.look world fun files => files.stat path).trans (FileSystem.stat_congr ?_)
  exact independent.find_eq inv member (by rw [away]; nofun) isOwn

theorem settled_openFile : Settled host (shelf results fixtures files).Inv fixture
    (fun answer hand => answer = (files.find fixture).map (fun _ => ()) ∧ hand = .away)
    (liftM (Routine.openFile fixture)) .away := by
  refine settled_request (.openFile fixture) trivial fun hands world inv away => ?_
  refine (reliable.look world fun files => (files.find fixture).map fun _ => ()).trans ?_
  rw [independent.find_eq inv member (by rw [away]; nofun) List.mem_cons_self]

/-- A source that can be read has a name: without one a path leads to directories only. -/
theorem settled_validateSource :
    Settled host (shelf results fixtures files).Inv fixture
      (fun _ hand => hand = .away ∧ ∃ name, fixture.fileName? = some name) (validateSource fixture)
      .away := by
  refine (independent.settled_stat member reliable List.mem_cons_self).bind ?_
  rintro _ _ ⟨rfl, rfl⟩
  cases answer : files.stat fixture with
  | error error => exact settled_throw _
  | ok stat =>
    simp only
    split
    · exact settled_throw _
    next notFolder =>
      split
      · exact settled_throw _
      have named := FileSystem.named_of_stat independent.rooted.nested answer notFolder
      refine (independent.settled_openFile member reliable).bind ?_
      rintro _ _ ⟨rfl, rfl⟩
      cases files.find fixture with
      | error error => exact settled_throw _
      | ok => exact settled_pure ⟨rfl, named⟩

theorem settled_capture (faithful : host.Faithful) (colorizer : Colorizer) :
    Settled host (shelf results fixtures files).Inv fixture
      (fun _ hand => hand = .away ∧ ∃ name, fixture.fileName? = some name) (colorizer.capture fixture)
      .away := by
  refine (independent.settled_validateSource member reliable).bind ?_
  rintro _ _ ⟨rfl, named⟩
  have same : ∀ hands after, (shelf results fixtures files).Inv hands after → hands fixture = .away →
      after.find fixture = files.find fixture := fun hands after inv away =>
    independent.find_eq inv member (by rw [away]; nofun) List.mem_cons_self
  refine (colorizer.tokenizer.settled_tokens faithful same).bind ?_
  rintro tokens _ rfl
  exact settled_pure ⟨rfl, named⟩

/-- A capture among others is that of some moment. -/
theorem momentary_capture (colorizer : Colorizer) :
    Momentary host (shelf results fixtures files).Inv fixture (colorizer.capture fixture) .away := by
  have valid := (independent.settled_validateSource member reliable).mono fun _ _ promised => promised.1
  have moment : ∃ hands world, (shelf results fixtures files).Inv hands (World.files world) ∧
      hands fixture = .away :=
    ⟨fun _ => .away, .start files, ⟨fun _ notAway => absurd rfl notAway, .inl ⟨fun _ => rfl, rfl⟩⟩, rfl⟩
  refine valid.momentary_bind (still_validateSource fixture) reliable moment fun _ => ?_
  exact (colorizer.tokenizer.momentary_tokens reliable moment).map (Capture.restrict colorizer.themes)

theorem settled_isThere : Settled host (shelf results fixtures files).Inv fixture
    (fun _ hand => hand = .away) (isThere (results.baseline fixture)) .away := by
  refine (independent.settled_stat member reliable (List.mem_cons_of_mem _ List.mem_cons_self)).bind ?_
  rintro answer _ ⟨-, rfl⟩
  split
  · exact settled_pure rfl
  · exact settled_pure rfl
  · exact settled_throw _

theorem settled_load : Settled host (shelf results fixtures files).Inv fixture
    (fun _ hand => hand = .away) (Capture.load (results.baseline fixture)) .away := by
  have keeps : (Routine.readText (results.baseline fixture)).Keeps host
      (shelf results fixtures files).Inv fixture (fun ended hand => ended = some
        ((files.read (results.baseline fixture)).bind fun bytes =>
          (Text.ofBytes bytes).mapError fun _ => .notText) ∧ hand = .away) .away := by
    refine Routine.Keeps.bind (Routine.keeps_still (.read _) trivial fun hands world inv away => ?_)
    have answered : (Request.perform host (.read (results.baseline fixture)) world).1 =
        files.read (results.baseline fixture) := by
      refine (reliable.look world fun files => files.read (results.baseline fixture)).trans ?_
      refine FileSystem.read_congr (independent.find_eq inv member (by rw [away]; nofun) ?_)
      exact List.mem_cons_of_mem _ List.mem_cons_self
    rw [answered]
    cases files.read (results.baseline fixture) with
    | error error => exact ⟨rfl, rfl⟩
    | ok bytes => exact ⟨rfl, rfl⟩
  have text : Settled host (shelf results fixtures files).Inv fixture (fun _ hand => hand = .away)
      (Action.on (results.baseline fixture) (Routine.readText (results.baseline fixture))) .away :=
    settled_on keeps fun _ _ => rfl
  refine text.bind ?_
  rintro text _ rfl
  split
  · exact settled_pure rfl
  · exact settled_throw _

end Looking

section Saving

variable {after : FileSystem} {hand : Hand} {bytes : ByteArray}

variable (independent : Independent results fixtures files)

include independent

theorem refused_of_moment (moment : (shelf results fixtures files).Moment fixture .away after)
    (refused : (after.makeDirectories results.baselineDirectory).1 = .error error) :
    (files.makeDirectories results.baselineDirectory).1 = .error error := by
  obtain ⟨hands, inv, -⟩ := moment
  rcases inv.state with ⟨-, same⟩ | ⟨-, ground, folder, mode, busy⟩
  · rw [← show after = files from same]
    exact refused
  · have found := busy.found independent.sound inv.crew
    rw [directory_shelf] at found
    rw [FileSystem.makeDirectories_of_find found] at refused
    cases refused

/-- Where one temporary file cannot be made none can. -/
theorem unnameable_of_moment (moment : (shelf results fixtures files).Moment fixture .inside after)
    (refused : after.createTemporary results.baselineDirectory = .error error) :
    (files.makeDirectories results.baselineDirectory).1 = .ok () ∧ error = .nameTooLong ∧
      ¬ ∃ n, Nameable results.baselineDirectory n := by
  obtain ⟨hands, inv, inside⟩ := moment
  obtain ⟨made, folder, mode, busy⟩ := busy_of_inv inv (by rw [inside]; nofun)
  have found := busy.found independent.sound inv.crew
  rw [directory_shelf] at found
  obtain ⟨rfl, unnameable⟩ := FileSystem.createTemporary_eq_error found refused
  refine ⟨made, rfl, fun possible => unnameable (independent.nameable possible _ ?_)⟩
  exact inv.freeNumber_le busy fun other member => member.1

/-- Whether the file comes to its place is told by what was there at first. -/
theorem obstacle?_of_moment
    (moment : (shelf results fixtures files).Moment fixture (.holding n mode content) after) :
    (files.makeDirectories results.baselineDirectory).1 = .ok () ∧
      (∃ n, Nameable results.baselineDirectory n) ∧
      ∀ result, after.rename (temporaryPath results.baselineDirectory n) (results.baseline fixture) = result →
        (files.furnished results).obstacle? (results.baseline fixture) =
          match result with
          | .ok _ => none
          | .error error => some error := by
  obtain ⟨hands, inv, holds⟩ := moment
  obtain ⟨made, folder, mode', busy⟩ := busy_of_inv inv (by rw [holds]; nofun)
  obtain ⟨ground, folder', held⟩ := inv.holding independent.sound holds
  have notPlaced : ∀ mode bytes, hands fixture ≠ .placed mode bytes := by
    rw [holds]
    nofun
  have same := inv.obstacle?_eq independent.sound busy held.member notPlaced
  refine ⟨made, ⟨n, held.fresh.2⟩, fun result renamed => same.symm.trans ?_⟩
  cases result with
  | ok => exact held.file.obstacle?_eq_none renamed
  | error => exact held.file.rename_eq_error_iff.mp renamed

omit independent in
open scoped Classical in
/-- How saving the baseline of a fixture ends, and what is then in its place. -/
noncomputable def verdict (results : Path) (files : FileSystem) (fixture : Path) (bytes : ByteArray) :
    Except Failure Unit × Hand :=
  match (files.makeDirectories results.baselineDirectory).1 with
  | .error error => (.error (.system results.baselineDirectory error), .away)
  | .ok () =>
    if ∃ n, Nameable results.baselineDirectory n then
      match (files.furnished results).obstacle? (results.baseline fixture) with
      | some error => (.error (.system (results.baseline fixture) error), .inside)
      | none => (.ok (), .placed (FileSystem.modeAfter (files.stat (results.baseline fixture))) bytes)
    else (.error (.system results.baselineDirectory .nameTooLong), .inside)

/-- The verdict is the only end. -/
theorem verdict_of_saveEnd (member : fixture ∈ fixtures) (reliable : host.Reliable)
    {result : Except Failure Unit}
    (ends : SaveEnd (shelf results fixtures files) host fixture bytes result hand) :
    verdict results files fixture bytes = (result, hand) := by
  unfold verdict
  cases ends with
  | broken broke => exact absurd (reliable _) broke
  | noDirectory moment refused =>
    rw [independent.refused_of_moment moment refused]
    rfl
  | noTemporary moment refused =>
    obtain ⟨made, rfl, unnameable⟩ := independent.unnameable_of_moment moment refused
    simp only [made, if_neg unnameable]
    rfl
  | notPlaced moment refused =>
    obtain ⟨made, possible, obstacle⟩ := independent.obstacle?_of_moment moment
    simp only [made, if_pos possible, obstacle _ refused]
    rfl
  | placed moment renamed told =>
    obtain ⟨made, possible, obstacle⟩ := independent.obstacle?_of_moment moment
    simp only [made, if_pos possible, obstacle _ renamed]
    rcases told with ⟨clock, broke⟩ | ⟨earlier, ⟨hands, inv, holds⟩, isMode⟩
    · exact absurd (reliable clock) broke
    · have same : earlier.find (results.baseline fixture) = files.find (results.baseline fixture) :=
        independent.find_eq inv member (by rw [holds]; nofun)
          (List.mem_cons_of_mem _ List.mem_cons_self)
      rw [isMode, ← FileSystem.stat_congr same]
      rfl

theorem settled_save (member : fixture ∈ fixtures) (reliable : host.Reliable)
    (named : ∃ name, fixture.fileName? = some name) (capture : Capture) (format : Format) :
    Settled host (shelf results fixtures files).Inv fixture (fun _ _ => True)
      (capture.save (results.baseline fixture) format) .away := by
  have whole : (capture.save (results.baseline fixture) format).run.Keeps host
      (shelf results fixtures files).Inv fixture (fun ended hand => ∃ result, ended = some result ∧
        SaveEnd (shelf results fixtures files) host fixture (capture.serialize format).toUTF8 result hand)
      .away := Capture.keeps_save independent.sound ⟨member, named⟩ capture format
  generalize (capture.serialize format).toUTF8 = bytes at whole
  refine ⟨some (verdict results files fixture bytes).1, (verdict results files fixture bytes).2,
    fun _ _ => trivial, whole.mono ?_⟩
  rintro _ hand ⟨result, rfl, ends⟩
  have only := independent.verdict_of_saveEnd member reliable ends
  rw [only]
  exact ⟨rfl, rfl⟩

end Saving

section Running

variable (independent : Independent results fixtures files) (member : fixture ∈ fixtures)
  (reliable : host.Reliable) (named : ∃ name, fixture.fileName? = some name)

include independent member reliable named

theorem settled_write (runner : SnapshotRunner) (current : Capture) (event : Event) :
    Settled host (shelf results fixtures files).Inv fixture (fun _ _ => True)
      (runner.write current (results.baseline fixture) event) .away :=
  (independent.settled_save member reliable named current _).bind fun _ hand _ =>
    (settled_tell event hand).mono fun _ _ _ => trivial

theorem settled_settle (runner : SnapshotRunner) (isResults : runner.resultsDir = results)
    (former current : Capture) :
    Settled host (shelf results fixtures files).Inv fixture (fun _ _ => True)
      (runner.settle fixture former current) .away := by
  unfold SnapshotRunner.settle
  rw [SnapshotRunner.baselineOf, isResults]
  cases former.classify current
  case identical => exact (settled_tell _ _).bind fun _ _ _ => settled_pure trivial
  all_goals
    refine (settled_tell _ _).bind ?_
    rintro _ _ rfl
    refine (independent.settled_write member reliable named runner current _).bind ?_
    exact fun _ _ _ => settled_pure trivial

theorem settled_check (runner : SnapshotRunner) (isResults : runner.resultsDir = results)
    (current : Capture) :
    Settled host (shelf results fixtures files).Inv fixture (fun _ _ => True)
      (runner.check fixture current) .away := by
  unfold SnapshotRunner.check
  rw [SnapshotRunner.baselineOf, isResults]
  refine (independent.settled_isThere member reliable).bind ?_
  rintro there _ rfl
  cases there with
  | true =>
    refine (independent.settled_load member reliable).bind ?_
    rintro former _ rfl
    exact independent.settled_settle member reliable named runner isResults former current
  | false =>
    refine (independent.settled_write member reliable named runner current _).bind ?_
    exact fun _ _ _ => settled_pure trivial

end Running

/-- The run of a fixture among the others comes to the end that it has alone. -/
theorem settled_run_of_faithful (independent : Independent results fixtures files)
    (member : fixture ∈ fixtures) (reliable : host.Reliable) (faithful : host.Faithful) (runner : SnapshotRunner)
    (isResults : runner.resultsDir = results) (mode : Mode) :
    Settled host (shelf results fixtures files).Inv fixture (fun _ _ => True)
      (runner.run mode fixture) .away := by
  unfold SnapshotRunner.run
  refine (independent.settled_capture member reliable faithful runner.colorizer).bind ?_
  rintro current _ ⟨rfl, named⟩
  cases mode with
  | check => exact independent.settled_check member reliable named runner isResults current
  | «export» =>
    dsimp only
    rw [SnapshotRunner.baselineOf, isResults]
    refine (independent.settled_write member reliable named runner current _).bind ?_
    exact fun _ _ _ => settled_pure trivial

theorem settled_run (independent : Independent results fixtures files) (member : fixture ∈ fixtures)
    (reliable : host.Reliable) (steady : host.Steady) (runner : SnapshotRunner)
    (isResults : runner.resultsDir = results) (mode : Mode) :
    Settled host (shelf results fixtures files).Inv fixture (fun _ _ => True)
      (runner.run mode fixture) .away :=
  independent.settled_run_of_faithful member reliable steady.faithful runner isResults mode

end Independent

end Colorization
