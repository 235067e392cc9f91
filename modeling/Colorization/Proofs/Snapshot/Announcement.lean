import Colorization.Proofs.Routine.Told
import Colorization.Proofs.Snapshot.Policy
import Colorization.Proofs.Token.Writers

/-! What a run tells of a change. It is told before the baseline is written, once, whatever becomes of the
writing; and without a change nothing of the kind is told. -/
namespace Colorization

open Colorization.Action (Returns Fails only_pure only_throw only_request only_on)

def Event.isChange : Event → Bool
  | .drifted _ _ | .changed _ _ => true
  | _ => false

def Event.isUpdate : Event → Bool
  | .updated _ => true
  | _ => false

/-- Nothing is told of a change or of an update. -/
def Request.Neutral : Request → Prop
  | .tell event => event.isChange = false ∧ event.isUpdate = false
  | _ => True

theorem neutral_validateSource (path : Path) : (validateSource path).Only Request.Neutral := by
  refine .bind (only_request trivial) fun answer => ?_
  split
  · exact only_throw _
  split
  · exact only_throw _
  split
  · exact only_throw _
  refine .bind (only_request trivial) fun opened => ?_
  split
  · exact only_throw _
  · exact only_pure _

theorem Tokenizer.neutral_tokens (tokenizer : Tokenizer) (path : Path) :
    (tokenizer.tokens path).Only Request.Neutral := by
  cases tokenizer with
  | inProcess =>
    refine .bind (only_request trivial) fun reply => ?_
    cases reply <;> trivial
  | command program args =>
    refine .bind (only_request ⟨rfl, rfl⟩) fun _ => ?_
    refine .bind (only_request trivial) fun answer => ?_
    cases answer <;> trivial

theorem Colorizer.neutral_capture (colorizer : Colorizer) (path : Path) :
    (colorizer.capture path).Only Request.Neutral :=
  .bind (neutral_validateSource path) fun _ =>
    .bind (colorizer.tokenizer.neutral_tokens path) fun _ => only_pure _

theorem neutral_isThere (path : Path) : (isThere path).Only Request.Neutral := by
  refine .bind (only_request trivial) fun answer => ?_
  split <;> trivial

namespace Capture

theorem neutral_load (path : Path) : (load path).Only Request.Neutral := by
  rw [Action.Only, run_load]
  exact ⟨trivial, fun _ => trivial⟩

theorem neutral_replace (temporary path : Path) (text : String) :
    (replace temporary path text).Only Request.Neutral := by
  have filled : (do
      Action.on temporary (Routine.overwrite temporary text.toUTF8)
      Action.on path (Routine.rename temporary path) : Action Unit).Only Request.Neutral :=
    .bind (only_on ⟨trivial, fun _ => trivial⟩) fun _ => only_on ⟨trivial, fun _ => trivial⟩
  refine .bind (only_request trivial) fun answer => ?_
  split
  · exact .bind (only_on ⟨trivial, fun _ => trivial⟩) fun _ => filled
  · exact filled

theorem neutral_save (capture : Capture) (path : Path) (format : Format) :
    (capture.save path format).Only Request.Neutral := by
  refine .bind (only_on ⟨trivial, fun _ => trivial⟩) fun _ => ?_
  refine .bind (only_on ⟨trivial, fun _ => trivial⟩) fun temporary => ?_
  refine .bind ?_ fun _ => only_request ⟨rfl, rfl⟩
  refine (neutral_replace temporary path _).tryCatch fun failure => ?_
  exact .bind (only_request trivial) fun _ => only_throw _

end Capture

theorem neutral_told {requests : List Request} (neutral : ∀ request ∈ requests, request.Neutral) :
    ∀ event ∈ told requests, event.isChange = false ∧ event.isUpdate = false :=
  fun _ member => neutral _ (mem_told_iff.mp member)

theorem filter_told_neutral {requests : List Request} (neutral : ∀ request ∈ requests, request.Neutral) :
    (told requests).filter Event.isChange = [] := by
  apply List.filter_eq_nil_iff.mpr
  intro event member
  simp [(neutral_told neutral event member).1]

namespace SnapshotRunner

variable {host : Host} {before ready : World} {runner : SnapshotRunner} {fixture : Path}
  {former current : Capture}

/-- A run captures the source and comes to a baseline with the tokens `former`. -/
def Finds (runner : SnapshotRunner) (host : Host) (fixture : Path) (before : World)
    (former current : Capture) (ready : World) : Prop :=
  ∃ captured asked, Returns host (runner.colorizer.capture fixture) before current captured ∧
    Returns host (isThere (runner.baselineOf fixture)) captured true asked ∧
    Returns host (Capture.load (runner.baselineOf fixture)) asked former ready

/-- What is told of a change. -/
def announcement (fixture : Path) (former current : Capture) : Event :=
  if former.classify current = .material then .changed fixture (former.compare current)
  else .drifted fixture (former.compare current)

theorem isChange_announcement (fixture : Path) (former current : Capture) :
    (announcement fixture former current).isChange = true := by
  unfold announcement
  split <;> rfl

theorem requests_run_of_finds (finds : runner.Finds host fixture before former current ready) :
    ∃ looked, (runner.run .check fixture).run.requests host before =
        looked ++ (runner.settle fixture former current).run.requests host ready ∧
      ∀ request ∈ looked, request.Still ∧ request.Neutral := by
  obtain ⟨captured, asked, capture, there, load⟩ := finds
  have first : (runner.run .check fixture).run.requests host before =
      (runner.colorizer.capture fixture).run.requests host before ++
        (runner.check fixture current).run.requests host captured := Action.requests_bind_of_returns capture
  have second : (runner.check fixture current).run.requests host captured =
      (isThere (runner.baselineOf fixture)).run.requests host captured ++
        (Capture.load (runner.baselineOf fixture) >>= fun former =>
          runner.settle fixture former current).run.requests host asked :=
    Action.requests_bind_of_returns there
  rw [Action.requests_bind_of_returns load] at second
  rw [second, ← List.append_assoc, ← List.append_assoc] at first
  refine ⟨_, first, fun request member => ?_⟩
  rcases List.mem_append.mp member with early | loading
  · rcases List.mem_append.mp early with capturing | asking
    · exact ⟨(runner.colorizer.still_capture fixture).requests host before request capturing,
        (runner.colorizer.neutral_capture fixture).requests host before request capturing⟩
    · exact ⟨(still_isThere _).requests host captured request asking,
        (neutral_isThere _).requests host captured request asking⟩
  · exact ⟨(Capture.still_load _).requests host asked request loading,
      (Capture.neutral_load _).requests host asked request loading⟩

theorem requests_settle (differ : former ≠ current) (ready : World) :
    (runner.settle fixture former current).run.requests host ready =
      .tell (announcement fixture former current) :: (runner.write current (runner.baselineOf fixture)
        (.updated (runner.baselineOf fixture))).run.requests
          host (Request.perform host (.tell (announcement fixture former current)) ready).2 := by
  unfold settle announcement
  cases classified : former.classify current with
  | identical => exact absurd ((Capture.classify_eq_identical_iff _ _).mp classified) differ
  | cosmetic =>
    simp only [reduceCtorEq, if_false]
    exact (Action.requests_tell_bind _ ready).trans (congrArg _ (Action.requests_bind_pure _))
  | material =>
    simp only [if_true]
    exact (Action.requests_tell_bind _ ready).trans (congrArg _ (Action.requests_bind_pure _))

/-- An update is told of if the baseline is saved, and only then. -/
theorem told_write (runner : SnapshotRunner) (host : Host) (current : Capture) (baseline : Path)
    (world : World) :
    let requests := (runner.write current baseline (.updated baseline)).run.requests host world
    (told requests).filter Event.isChange = [] ∧ (.updated baseline ∈ told requests ↔
      ∃ after, Returns host (current.save baseline runner.colorizer.format) world () after) := by
  intro requests
  have saving := (current.neutral_save baseline runner.colorizer.format).requests host world
  rcases Action.returns_or_fails host (current.save baseline runner.colorizer.format) world with
    ⟨⟨⟩, after, saved⟩ | ⟨failure, after, failed⟩
  · have made : requests = (current.save baseline runner.colorizer.format).run.requests host world ++
        [.tell (.updated baseline)] := Action.requests_bind_of_returns saved
    rw [made, told_append, List.filter_append, filter_told_neutral saving]
    exact ⟨rfl, fun _ => ⟨after, saved⟩, fun _ => List.mem_append_right _ List.mem_cons_self⟩
  · have made : requests = (current.save baseline runner.colorizer.format).run.requests host world :=
      Action.requests_bind_of_fails failed
    rw [made]
    refine ⟨filter_told_neutral saving, fun updated => ?_, fun ⟨after', saved⟩ => ?_⟩
    · cases (neutral_told saving _ updated).2
    · exact absurd saved (Action.not_returns_of_fails failed _ _)

/-- What an event tells of a change: how the captures compare, and at which level. -/
structure Announces (fixture : Path) (former current : Capture) (event : Event) : Prop where
  carried : event = .changed fixture (former.compare current) ∨
    event = .drifted fixture (former.compare current)
  warning : former.classify current = .material ↔ event.level = .warn ∧
    event.message = s!"Colorization of {fixture.text} changed: {(former.compare current).summary}"
  info : former.classify current = .cosmetic ↔ event.level = .info ∧
    event.message = s!"Cosmetic drift in {fixture.text}: {(former.compare current).summary}"

theorem announces_announcement (differ : former ≠ current) :
    Announces fixture former current (announcement fixture former current) := by
  unfold announcement
  split
  next material =>
    refine ⟨.inl rfl, ⟨fun _ => ⟨rfl, rfl⟩, fun _ => material⟩, ?_⟩
    simp [material, Event.level]
  next tolerable =>
    have cosmetic : former.classify current = .cosmetic := by
      cases classified : former.classify current with
      | identical => exact absurd ((Capture.classify_eq_identical_iff _ _).mp classified) differ
      | cosmetic => rfl
      | material => exact absurd classified tolerable
    refine ⟨.inr rfl, ?_, ⟨fun _ => ⟨rfl, rfl⟩, fun _ => cosmetic⟩⟩
    simp [tolerable, Event.level]

/-- A change is told between what a run looks at and the rest, and an update as it becomes of that. -/
structure Announced (runner : SnapshotRunner) (host : Host) (fixture : Path) (former current : Capture)
    (ready : World) (looked : List Request) (event : Event) (rest : List Request) : Prop where
  announces : Announces fixture former current event
  once : (told (looked ++ .tell event :: rest)).filter Event.isChange = [event]
  looks : ∀ request ∈ looked, request.Still
  notBefore : ∀ other ∈ told looked, other.isUpdate = false
  updated : .updated (runner.baselineOf fixture) ∈ told rest ↔
    ∃ after, Returns host (current.save (runner.baselineOf fixture) runner.colorizer.format)
      (Request.perform host (.tell event) ready).2 () after

theorem announced_of_finds (finds : runner.Finds host fixture before former current ready)
    (differ : former ≠ current) :
    ∃ looked event rest, (runner.run .check fixture).run.requests host before =
        looked ++ .tell event :: rest ∧
      runner.Announced host fixture former current ready looked event rest := by
  obtain ⟨looked, requests, early⟩ := requests_run_of_finds finds
  have silent : ∀ request ∈ looked, request.Neutral := fun request member => (early request member).2
  obtain ⟨noChange, updated⟩ := told_write runner host current (runner.baselineOf fixture)
    (Request.perform host (.tell (announcement fixture former current)) ready).2
  rw [requests_settle differ] at requests
  refine ⟨looked, _, _, requests, announces_announcement differ, ?_,
    fun request member => (early request member).1,
    fun other member => (neutral_told silent other member).2, updated⟩
  rw [told_append, told_tell_cons, List.filter_append, filter_told_neutral silent,
    List.filter_cons_of_pos (isChange_announcement ..), noChange]
  rfl

theorem neutral_write (runner : SnapshotRunner) (current : Capture) (baseline : Path) {event : Event}
    (noChange : event.isChange = false) (noUpdate : event.isUpdate = false) (outcome : Outcome) :
    (do runner.write current baseline event; return outcome : Action Outcome).Only Request.Neutral :=
  .bind (.bind (current.neutral_save _ _) fun _ => only_request ⟨noChange, noUpdate⟩)
    fun _ => only_pure _

/-- Unless a run finds another capture in the baseline it tells of no change. -/
theorem neutral_run (host : Host) (before : World) (runner : SnapshotRunner) (mode : Mode) (fixture : Path)
    (unchanged : mode = .check → ∀ former current ready,
      runner.Finds host fixture before former current ready → former = current) :
    ∀ request ∈ (runner.run mode fixture).run.requests host before, request.Neutral := by
  -- Only the branch that compares can tell of a change; there the run finds equal captures.
  refine (runner.colorizer.neutral_capture fixture).requests_bind fun current captured capture => ?_
  cases mode with
  | «export» => exact (neutral_write runner current _ rfl rfl _).requests host captured
  | check =>
    refine (neutral_isThere _).requests_bind fun there asked isThere => ?_
    cases there with
    | false => exact (neutral_write runner current _ rfl rfl _).requests host asked
    | true =>
      refine (Capture.neutral_load _).requests_bind fun former ready load => ?_
      obtain rfl := unchanged rfl former current ready ⟨captured, asked, capture, isThere, load⟩
      unfold settle
      rw [(Capture.classify_eq_identical_iff former former).mpr rfl]
      exact List.forall_mem_singleton.mpr ⟨rfl, rfl⟩

theorem carried_of_settle (differ : former ≠ current)
    (returned : Returns host (runner.settle fixture former current) ready outcome after) :
    outcome.comparison? = some (former.compare current) := by
  unfold settle at returned
  cases classified : former.classify current with
  | identical => exact absurd ((Capture.classify_eq_identical_iff _ _).mp classified) differ
  | cosmetic | material =>
    simp only [classified] at returned
    obtain ⟨⟨⟩, told, -, rest⟩ := Action.returns_bind.mp returned
    obtain ⟨⟨⟩, written, -, rest⟩ := Action.returns_bind.mp rest
    obtain ⟨rfl, -⟩ := Action.returns_pure.mp rest
    rfl

/-- An outcome without a comparison is of a run that has found no change. -/
theorem unchanged_of_returns (returned : Returns host (runner.run mode fixture) before outcome after)
    (noComparison : outcome.comparison? = none) (isCheck : mode = .check)
    (finds : runner.Finds host fixture before former current ready) : former = current := by
  subst isCheck
  obtain ⟨captured, asked, capture, there, load⟩ := finds
  obtain ⟨_, _, capture', rest⟩ := Action.returns_bind.mp returned
  cases capture.symm.trans capture'
  obtain ⟨_, _, there', rest⟩ := Action.returns_bind.mp rest
  cases there.symm.trans there'
  obtain ⟨_, _, load', settled⟩ := Action.returns_bind.mp rest
  cases load.symm.trans load'
  by_contra differ
  cases noComparison.symm.trans (carried_of_settle differ settled)

/-- The log of a run is what its requests tell. Where it finds another capture in the baseline it tells of
the change before it asks for any change of the files, and of an update if the baseline is saved; and
where there is nothing to compare, or nothing differs, it tells of no change. -/
theorem change_told_first (runner : SnapshotRunner) (fixture : Path) (host : Host) (before : World) :
    (∀ mode, ((runner.run mode fixture).run.run host before).2.events =
      before.events ++ told ((runner.run mode fixture).run.requests host before)) ∧
    (∀ former current ready, runner.Finds host fixture before former current ready → former ≠ current →
      ∃ looked event rest,
        (runner.run .check fixture).run.requests host before = looked ++ .tell event :: rest ∧
        runner.Announced host fixture former current ready looked event rest) ∧
    ∀ mode, mode = .export ∨
        (∀ former current ready, ¬ runner.Finds host fixture before former current ready) ∨
        (∃ outcome after, Returns host (runner.run mode fixture) before outcome after ∧
          (outcome = .created ∨ outcome = .passed ∨ outcome = .exported)) →
      ∀ event ∈ told ((runner.run mode fixture).run.requests host before), event.isChange = false := by
  refine ⟨fun mode => Routine.events_of_run _ host before, fun former current ready => announced_of_finds,
    fun mode reason event member => ?_⟩
  suffices unchanged : mode = .check → ∀ former current ready,
      runner.Finds host fixture before former current ready → former = current from
    (neutral_told (neutral_run host before runner mode fixture unchanged) event member).1
  rintro isCheck former current ready finds
  rcases reason with isExport | never | ⟨outcome, after, returned, silent⟩
  · cases isCheck.symm.trans isExport
  · exact absurd finds (never former current ready)
  · apply unchanged_of_returns returned _ isCheck finds
    rcases silent with rfl | rfl | rfl <;> rfl

/-- A host on which a new baseline does not come to its place. -/
def unplacing : Host := { Host.quiet oneTheme with
  breakdown? n := if n = 9 then some ⟨.inputOutput, 0⟩ else none }

/-- The change is told although the baseline stays as it was. -/
theorem change_told_first_unplaced : ∃ ready looked event rest,
    (plain ⟨"."⟩).Finds unplacing ⟨"x.js"⟩ (.start drifting) twoThemes oneTheme ready ∧
    twoThemes ≠ oneTheme ∧
    ((plain ⟨"."⟩).run .check ⟨"x.js"⟩).run.requests unplacing (.start drifting) =
      looked ++ .tell event :: rest ∧
    (plain ⟨"."⟩).Announced unplacing ⟨"x.js"⟩ twoThemes oneTheme ready looked event rest ∧
    (∃ failure after,
      Fails unplacing ((plain ⟨"."⟩).run .check ⟨"x.js"⟩) (.start drifting) (some failure) after ∧
      after.files.read ⟨"x_js.json"⟩ = drifting.read ⟨"x_js.json"⟩) ∧
    ∀ event ∈ told (((plain ⟨"."⟩).run .export ⟨"x.js"⟩).run.requests unplacing (.start drifting)),
      event.isChange = false := by
  have passes : Action.returnsWith unplacing (do
      let current ← (plain ⟨"."⟩).colorizer.capture ⟨"x.js"⟩
      let there ← isThere ((plain ⟨"."⟩).baselineOf ⟨"x.js"⟩)
      let former ← Capture.load ((plain ⟨"."⟩).baselineOf ⟨"x.js"⟩)
      return (current, there, former)) (.start drifting)
      (fun found _ => found = (oneTheme, true, twoThemes)) = true := by decide +kernel
  obtain ⟨found, after, returned, isFound⟩ := Action.returns_of_returnsWith passes
  obtain rfl := of_decide_eq_true isFound
  obtain ⟨current, captured, capture, rest⟩ := Action.returns_bind.mp returned
  obtain ⟨there, asked, isThere, rest⟩ := Action.returns_bind.mp rest
  obtain ⟨former, ready, load, rest⟩ := Action.returns_bind.mp rest
  obtain ⟨⟨⟩, -⟩ := Action.returns_pure.mp rest
  have finds : (plain ⟨"."⟩).Finds unplacing ⟨"x.js"⟩ (.start drifting) twoThemes oneTheme ready :=
    ⟨captured, asked, capture, isThere, load⟩
  have differ : twoThemes ≠ oneTheme := by decide
  have fails : Action.failsWith unplacing ((plain ⟨"."⟩).run .check ⟨"x.js"⟩) (.start drifting)
      (fun after => after.files.read ⟨"x_js.json"⟩ = drifting.read ⟨"x_js.json"⟩) = true := by
    decide +kernel
  obtain ⟨failure, stopped, failed, same⟩ := Action.fails_of_failsWith fails
  obtain ⟨-, changes, others⟩ := change_told_first (plain ⟨"."⟩) ⟨"x.js"⟩ unplacing (.start drifting)
  obtain ⟨looked, event, rest, requests, announced⟩ := changes _ _ ready finds differ
  exact ⟨ready, looked, event, rest, finds, differ, requests, announced,
    ⟨failure, stopped, failed, of_decide_eq_true same⟩, others .export (.inl rfl)⟩

end SnapshotRunner

end Colorization
