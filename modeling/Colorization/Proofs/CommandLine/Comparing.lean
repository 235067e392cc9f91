import Colorization.Proofs.CommandLine.Execution
import Colorization.Proofs.Comparison.Differences
import Colorization.Proofs.Comparison.Shown
import Colorization.Proofs.FileSystem.Again
import Colorization.Proofs.Routine.Momentary
import Colorization.Proofs.Routine.Requests
import Colorization.Proofs.Snapshot.Ledger
import Colorization.Proofs.Token.Atomic

/-! A source against its baseline. First all differences are shown, and then the baseline is written
anew if that is wanted and there are any. -/
namespace Colorization

open Colorization.Action (Returns Fails)
open Errand (during perform)

variable {host : Host} {before after : World}

namespace Errand

theorem traces_during_bind_of_returns {stage : Option Stage} {action : Action α} {next : α → Errand β}
    (returned : Returns host action before value middle) :
    (during stage action.undertake >>= next).run.Traces host before requests result after ↔
      ∃ later, requests = action.run.requests host before ++ later ∧
        (next value).run.Traces host middle later result after :=
  Program.traces_act_of_run returned

/-- A failure is the end of an errand. -/
theorem traces_during_bind_of_fails {stage : Option Stage} {action : Action α} {next : α → Errand β}
    {failure : Failure} (failed : Fails host action before (some failure) stopped) :
    (during stage action.undertake >>= next).run.Traces host before requests result after ↔
      requests = action.run.requests host before ∧ result = some (.error (.work stage failure)) ∧
        after = stopped := by
  refine (Program.traces_act_of_run failed).trans ?_
  constructor
  · rintro ⟨later, rfl, rest⟩
    obtain ⟨rfl, rfl, rfl⟩ := Program.traces_done_iff.mp rest
    exact ⟨List.append_nil _, rfl, rfl⟩
  · rintro ⟨rfl, rfl, rfl⟩
    exact ⟨[], (List.append_nil _).symm, .done⟩

theorem traces_print_bind {text : String} {next : Unit → Errand β} :
    (perform (Routine.print text) >>= next).run.Traces host before requests result after ↔
      ∃ later, requests = .print .output text :: later ∧
        (next ()).run.Traces host (before.shows .output text) later result after := by
  have ran : (Routine.print text).run host before = (some (), before.shows .output text) := rfl
  exact Program.traces_act_of_run ran

end Errand

namespace Colorizer

variable {colorizer : Colorizer} {baseline source : Path} {update json : Bool} {base cur : Capture}
  {seen ready shown : World}

/-- What comes of a comparison once it is shown. -/
inductive Settles (colorizer : Colorizer) (host : Host) (baseline : Path) (update : Bool)
    (base cur : Capture) (shown : World) : Option (Except Trouble Bool) → World → Prop where
  | kept : update = false ∨ base = cur →
      Settles colorizer host baseline update base cur shown (some (.ok (decide (base = cur)))) shown
  | updated : update = true → base ≠ cur →
      Returns host (cur.save baseline colorizer.format) shown () saved →
      Settles colorizer host baseline update base cur shown (some (.ok false))
        (saved.shows .output s!"Updated baseline {baseline.text}\n")
  | refused : update = true → base ≠ cur →
      Fails host (cur.save baseline colorizer.format) shown (some (.system place error)) stopped →
      Settles colorizer host baseline update base cur shown
        (some (.error (.work none (.system place error)))) stopped

theorem identical_compare (base cur : Capture) : (base.compare cur).identical = decide (base = cur) := by
  rw [Comparison.identical, Bool.eq_iff_iff, List.isEmpty_iff, decide_eq_true_iff, Capture.compare_eq_nil_iff]

theorem settles_of_traces (loaded : Returns host (Capture.load baseline) before base seen)
    (taken : Returns host (colorizer.capture source) seen cur ready)
    (traces : (colorizer.compareWithBaseline baseline source update json).run.Traces host before requests
      result after) :
    ∃ looked rest, requests = looked ++ .print .output ((base.compare cur).text json) :: rest ∧
      (∀ request ∈ looked, request.Still) ∧ (update = false ∨ base = cur → rest = []) ∧
      colorizer.Settles host baseline update base cur
        (ready.shows .output ((base.compare cur).text json)) result after := by
  unfold compareWithBaseline at traces
  obtain ⟨_, rfl, behindLoad⟩ := (Errand.traces_during_bind_of_returns loaded).mp traces
  obtain ⟨_, rfl, behindCapture⟩ := (Errand.traces_during_bind_of_returns taken).mp behindLoad
  obtain ⟨rest, rfl, onward⟩ := Errand.traces_print_bind.mp behindCapture
  refine ⟨_, rest, (List.append_assoc ..).symm, ?_, ?_⟩
  · intro request member
    rcases List.mem_append.mp member with early | late
    · exact (Capture.still_load baseline).requests host before request early
    · exact (colorizer.still_capture source).requests host seen request late
  rw [identical_compare] at onward
  split at onward
  next wanted =>
    obtain ⟨isUpdate, differs⟩ : update = true ∧ base ≠ cur := by simpa using wanted
    have never : ¬ (update = false ∨ base = cur) := by simp [isUpdate, differs]
    refine ⟨fun unchanged => absurd unchanged never, ?_⟩
    obtain ⟨ended, saved, ran, rfl | ⟨place, error, rfl⟩⟩ := Capture.ends_of_save cur baseline colorizer.format
      host (ready.shows .output ((base.compare cur).text json))
    · obtain ⟨_, rfl, behindSave⟩ := (Errand.traces_during_bind_of_returns ran).mp onward
      obtain ⟨_, rfl, told⟩ := Errand.traces_print_bind.mp behindSave
      obtain ⟨rfl, rfl, rfl⟩ := Program.traces_done_iff.mp told
      rw [decide_eq_false differs]
      exact .updated isUpdate differs ran
    · obtain ⟨rfl, rfl, rfl⟩ := (Errand.traces_during_bind_of_fails ran).mp onward
      exact .refused isUpdate differs ran
  next unwanted =>
    have unchanged : update = false ∨ base = cur := by
      cases update <;> simp_all
    obtain ⟨rfl, rfl, rfl⟩ := Program.traces_done_iff.mp onward
    exact ⟨fun _ => rfl, .kept unchanged⟩

/-- The form in which it was shown makes no difference. -/
theorem Settles.unique (settles : colorizer.Settles host baseline update base cur shown result after)
    (alike : shown.Alike shown')
    (settles' : colorizer.Settles host baseline update base cur shown' result' after') :
    result' = result ∧ after'.files = after.files := by
  obtain ⟨answered, left⟩ := (cur.save baseline colorizer.format).run.run_alike host alike
  cases settles with
  | kept unchanged =>
    cases settles' with
    | kept => exact ⟨rfl, alike.files.symm⟩
    | updated wanted differs | refused wanted differs => simp [wanted, differs] at unchanged
  | updated wanted differs saved =>
    rw [saved] at answered left
    cases settles' with
    | kept unchanged => simp [wanted, differs] at unchanged
    | updated _ _ saved' =>
      rw [saved'] at left
      exact ⟨rfl, left.files.symm⟩
    | refused _ _ failed' =>
      rw [failed'] at answered
      cases answered
  | refused wanted differs failed =>
    rw [failed] at answered left
    cases settles' with
    | kept unchanged => simp [wanted, differs] at unchanged
    | updated _ _ saved' =>
      rw [saved'] at answered
      cases answered
    | refused _ _ failed' =>
      rw [failed'] at answered left
      cases answered
      exact ⟨rfl, left.files.symm⟩

/-- What is promised of the comparison of a baseline that holds `base` with a source that is captured
as `cur`. -/
structure Compares (colorizer : Colorizer) (host : Host) (baseline source : Path) (update json : Bool)
    (base cur : Capture) (before : World) (requests : List Request)
    (result : Option (Except Trouble Bool)) (after : World) : Prop where
  matching : result = some (.ok true) ↔ base = cur
  untouched : update = false ∨ base = cur → result = some (.ok (decide (base = cur))) ∧
    after.files = before.files ∧ ∀ request ∈ requests, request.Still
  /-- The baseline is replaced by the capture, or the system refuses that and all is as it was. -/
  rewritten : update = true → base ≠ cur →
    (result = some (.ok false) ∧
      before.files.Replaced after.files baseline (cur.serialize colorizer.format).toUTF8 ∧
      after.files.read baseline = .ok (cur.serialize colorizer.format).toUTF8) ∨
    ∃ place error, result = some (.error (.work none (.system place error))) ∧ after.files = before.files
  /-- Before any change is asked for all differences are printed. -/
  shown : base ≠ cur → ∃ looked rest,
    requests = looked ++ .print .output ((base.compare cur).text json) :: rest ∧
    (∀ request ∈ looked, request.Still) ∧ (.output, (base.compare cur).text json) ∈ after.printed ∧
    ∀ (number : Nat) difference, (base.compare cur).differences[number]? = some difference →
      difference.shown json number <:+: ((base.compare cur).text json).toList
  anyForm : ∀ json' requests' result' after',
    (colorizer.compareWithBaseline baseline source update json').run.Traces host before requests' result'
      after' → result' = result ∧ after'.files = after.files
  /-- Where the baseline is what was captured the same command has nothing to do. -/
  again : update = true ∨ base = cur → (∃ same, result = some (.ok same)) →
    ∀ host' before' ready', before'.files = after.files → host'.breakdown? before'.clock = none →
      Returns host' (colorizer.capture source) before'.tick cur ready' →
      ∀ requests' result' after',
        (colorizer.compareWithBaseline baseline source update json).run.Traces host' before' requests' result'
          after' →
        result' = some (.ok true) ∧ after'.files = before'.files ∧ ∀ request ∈ requests', request.Still

theorem files_of_taken (loaded : Returns host (Capture.load baseline) before base seen)
    (taken : Returns host (colorizer.capture source) seen cur ready) : ready.files = before.files := by
  obtain ⟨-, -, rfl⟩ := Capture.returns_load.mp loaded
  exact (captures_of_capture taken).2

/-- Nothing is asked for but to look and to print. -/
theorem untouched_of_traces (loaded : Returns host (Capture.load baseline) before base seen)
    (taken : Returns host (colorizer.capture source) seen cur ready) (unchanged : update = false ∨ base = cur)
    (traces : (colorizer.compareWithBaseline baseline source update json).run.Traces host before requests
      result after) :
    result = some (.ok (decide (base = cur))) ∧ after.files = before.files ∧
      ∀ request ∈ requests, request.Still := by
  obtain ⟨looked, rest, rfl, still, none, settles⟩ := settles_of_traces loaded taken traces
  have same : ready.files = before.files := files_of_taken loaded taken
  cases settles with
  | kept =>
    refine ⟨rfl, same, fun request member => ?_⟩
    rw [none unchanged] at member
    rcases List.mem_append.mp member with early | late
    · exact still request early
    · rw [List.mem_singleton.mp late]
      trivial
  | updated wanted differs | refused wanted differs => simp [wanted, differs] at unchanged

theorem rewritten_of_traces (loaded : Returns host (Capture.load baseline) before base seen)
    (taken : Returns host (colorizer.capture source) seen cur ready) (wanted : update = true) (differs : base ≠ cur)
    (traces : (colorizer.compareWithBaseline baseline source update json).run.Traces host before requests
      result after) :
    (result = some (.ok false) ∧
      before.files.Replaced after.files baseline (cur.serialize colorizer.format).toUTF8 ∧
      after.files.read baseline = .ok (cur.serialize colorizer.format).toUTF8) ∨
    ∃ place error, result = some (.error (.work none (.system place error))) ∧ after.files = before.files := by
  obtain ⟨-, held, -⟩ := Capture.returns_load.mp loaded
  have ⟨text, wasRead, _⟩ := held
  obtain ⟨location, node, found, notFolder, -⟩ := FileSystem.read_eq_ok_iff.mp wasRead
  have whole := FileSystem.prepared_of_find found notFolder
  have unchanged := files_of_taken loaded taken
  have same : (ready.shows .output ((base.compare cur).text json)).files = before.files := unchanged
  obtain ⟨looked, rest, rfl, -, -, settles⟩ := settles_of_traces loaded taken traces
  cases settles with
  | kept unchanged => simp [wanted, differs] at unchanged
  | updated _ _ saved =>
    have replaced := Capture.replaced_of_save saved
    rw [same] at replaced
    have readable := replaced.read_iff.mpr (FileSystem.not_runsThroughItself_of_holds held)
    exact .inl ⟨rfl, whole ▸ replaced, readable⟩
  | @refused place error _ _ _ failed =>
    have left := Capture.files_of_failed_save failed
    rw [same, whole, or_self] at left
    exact .inr ⟨place, error, rfl, left⟩

theorem shown_of_traces (loaded : Returns host (Capture.load baseline) before base seen)
    (taken : Returns host (colorizer.capture source) seen cur ready)
    (traces : (colorizer.compareWithBaseline baseline source update json).run.Traces host before requests
      result after) :
    ∃ looked rest, requests = looked ++ .print .output ((base.compare cur).text json) :: rest ∧
      (∀ request ∈ looked, request.Still) ∧ (.output, (base.compare cur).text json) ∈ after.printed := by
  obtain ⟨looked, rest, rfl, still, -, settles⟩ := settles_of_traces loaded taken traces
  have inside : (Channel.output, (base.compare cur).text json) ∈
      (ready.shows .output ((base.compare cur).text json)).printed :=
    List.mem_append_right _ (List.mem_singleton_self _)
  refine ⟨looked, rest, rfl, still, ?_⟩
  cases settles with
  | kept => exact inside
  | updated _ _ saved => exact List.mem_append_left _ (World.printed_of_run saved inside)
  | refused _ _ failed => exact World.printed_of_run failed inside

theorem compares_of_traces (loaded : Returns host (Capture.load baseline) before base seen)
    (taken : Returns host (colorizer.capture source) seen cur ready)
    (traces : (colorizer.compareWithBaseline baseline source update json).run.Traces host before requests
      result after) :
    colorizer.Compares host baseline source update json base cur before requests result after where
  matching := by
    obtain ⟨_, _, -, -, -, settles⟩ := settles_of_traces loaded taken traces
    cases settles with
    | kept => simp
    | updated _ differs | refused _ differs => simp [differs]
  untouched unchanged := untouched_of_traces loaded taken unchanged traces
  rewritten wanted differs := rewritten_of_traces loaded taken wanted differs traces
  shown _ := by
    obtain ⟨looked, rest, same, still, printed⟩ := shown_of_traces loaded taken traces
    exact ⟨looked, rest, same, still, printed, fun number difference => Comparison.infix_text json⟩
  anyForm json' requests' result' after' traces' := by
    obtain ⟨_, _, -, -, -, settles⟩ := settles_of_traces loaded taken traces
    obtain ⟨_, _, -, -, -, settles'⟩ := settles_of_traces loaded taken traces'
    have alike : (ready.shows .output ((base.compare cur).text json)).Alike
        (ready.shows .output ((base.compare cur).text json')) := ⟨rfl, rfl⟩
    exact settles.unique alike settles'
  again := by
    rintro isCur ⟨same, isOk⟩ host' before' ready' left whole taken' requests' result' after' traces'
    have held : after.files.Holds baseline cur := by
      by_cases equal : base = cur
      · rw [(untouched_of_traces loaded taken (.inr equal) traces).2.1, ← equal]
        exact (Capture.returns_load.mp loaded).2.1
      · rcases rewritten_of_traces loaded taken (isCur.resolve_right equal) equal traces with
          ⟨-, -, readable⟩ | ⟨_, _, failed, -⟩
        · exact FileSystem.holds_of_read readable
        · cases isOk.symm.trans failed
    have loaded' : Returns host' (Capture.load baseline) before' cur before'.tick :=
      Capture.returns_load.mpr ⟨whole, left ▸ held, rfl⟩
    simpa using untouched_of_traces loaded' taken' (.inr rfl) traces'

/-- The runner passes what the command finds equal. -/
theorem passes_iff {runner : SnapshotRunner} {fixture : Path} (reliable : host.Reliable)
    (held : before.files.Holds (runner.baselineOf fixture) base)
    (taken : Returns host (runner.colorizer.capture fixture) before cur ready) :
    (∃ after, Returns host (runner.run .check fixture) before .passed after) ↔ base = cur := by
  constructor
  · rintro ⟨after, returned⟩
    obtain ⟨cur', ready', taken', checked⟩ := Action.returns_bind.mp returned
    cases taken.symm.trans taken'
    have unchanged := (captures_of_capture taken).2
    have checked : Returns host (runner.check fixture cur) ready .passed after := checked
    have policy := SnapshotRunner.checked_of_check (fun created => by cases created) checked
    exact held.unique (unchanged ▸ policy.passed_iff.mp rfl)
  · rintro rfl
    rw [← (captures_of_capture taken).2] at held
    obtain ⟨after, checked, -⟩ := SnapshotRunner.returns_check_of_holds reliable runner held
    exact ⟨after, Action.returns_bind.mpr ⟨base, ready, taken, checked⟩⟩

/-- A baseline that can be loaded, and a source that is captured: the comparison comes to an end with
what is promised, and calls equal what a runner would pass. -/
theorem compare_end_to_end (loaded : Returns host (Capture.load baseline) before base seen)
    (taken : Returns host (colorizer.capture source) seen cur ready) (update json : Bool) :
    (∃ requests result after,
      (colorizer.compareWithBaseline baseline source update json).run.Traces host before requests result
        after) ∧
    (∀ requests result after,
      (colorizer.compareWithBaseline baseline source update json).run.Traces host before requests result
        after →
      colorizer.Compares host baseline source update json base cur before requests result after) ∧
    ∀ (other : Host) (world taken' : World) (runner : SnapshotRunner) fixture, other.Reliable →
      world.files.Holds (runner.baselineOf fixture) base →
      Returns other (runner.colorizer.capture fixture) world cur taken' →
      ((∃ after, Returns other (runner.run .check fixture) world .passed after) ↔ base = cur) := by
  refine ⟨?_, fun requests result after traces => compares_of_traces loaded taken traces,
    fun other world taken' runner fixture reliable held captured => passes_iff reliable held captured⟩
  have ends := (colorizer.compareWithBaseline baseline source update json).run.ends_run host before
  obtain ⟨requests, traces⟩ := Program.ends_iff_traces.mp ends
  exact ⟨requests, _, _, traces⟩

/-- A baseline in two themes for a source that is now captured in one. -/
theorem compare_end_to_end_drifting : SnapshotRunner.twoThemes ≠ SnapshotRunner.oneTheme ∧
    ∃ requests result after,
      ((SnapshotRunner.plain ⟨"."⟩).colorizer.compareWithBaseline ⟨"x_js.json"⟩ ⟨"x.js"⟩ true false).run.Traces
        (.quiet SnapshotRunner.oneTheme) (.start SnapshotRunner.drifting) requests result after ∧
      (SnapshotRunner.plain ⟨"."⟩).colorizer.Compares (.quiet SnapshotRunner.oneTheme) ⟨"x_js.json"⟩ ⟨"x.js"⟩ true
        false SnapshotRunner.twoThemes SnapshotRunner.oneTheme (.start SnapshotRunner.drifting) requests result
        after := by
  have loads : Action.returnsWith (.quiet SnapshotRunner.oneTheme) (Capture.load ⟨"x_js.json"⟩)
      (.start SnapshotRunner.drifting) (fun given _ => given = SnapshotRunner.twoThemes) = true := by
    decide +kernel
  obtain ⟨given, seen, loaded, isGiven⟩ := Action.returns_of_returnsWith loads
  obtain rfl : given = SnapshotRunner.twoThemes := of_decide_eq_true isGiven
  have captures : Action.returnsWith (.quiet SnapshotRunner.oneTheme)
      ((SnapshotRunner.plain ⟨"."⟩).colorizer.capture ⟨"x.js"⟩) (World.start SnapshotRunner.drifting).tick
      (fun given _ => given = SnapshotRunner.oneTheme) = true := by decide +kernel
  obtain ⟨given, ready, taken, isGiven⟩ := Action.returns_of_returnsWith captures
  obtain rfl : given = SnapshotRunner.oneTheme := of_decide_eq_true isGiven
  obtain ⟨-, -, rfl⟩ := Capture.returns_load.mp loaded
  obtain ⟨⟨requests, result, after, traces⟩, promised, -⟩ := compare_end_to_end loaded taken true false
  exact ⟨by decide, requests, result, after, traces, promised requests result after traces⟩

end Colorizer

end Colorization
