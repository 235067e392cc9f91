import Colorization.Proofs.Routine.Told
import Colorization.Proofs.Token.Atomic

/-! Which stage a failure is from. With a program as the tokenizer a run fails for the source, for
what the program does, for the document that is there, or because the system refuses something; the
kind of the failure tells these apart, and the first two come before anything is written. -/
namespace Colorization

open Colorization.Action (Returns Fails)

/-- What a request is answered that comes after `later` others, none of which changes a file. -/
def World.reply (world : World) (host : Host) (later : Nat)
    (request : FileSystem → Except SystemError α) : Except SystemError α :=
  match host.breakdown? (world.clock + later) with
  | some breakdown => .error breakdown.error
  | none => request world.files

namespace World

variable {request : FileSystem → Except SystemError α}

theorem look_eq (world : World) (host : Host) (request : FileSystem → Except SystemError α) :
    world.look host request = (world.reply host 0 request, world.tick) := by
  unfold look reply
  rw [Nat.add_zero]
  cases host.breakdown? world.clock <;> rfl

@[simp] theorem reply_tick (world : World) (host : Host) (later : Nat) :
    world.tick.reply host later request = world.reply host (later + 1) request := by
  unfold reply tick
  rw [Nat.add_assoc, Nat.add_comm 1]

end World

theorem Path.suffix_baseline (directory fixture : Path) :
    ".json".toList <:+ (directory.baseline fixture).text.toList := by
  have ends := fixture.suffix_baselineName
  unfold baseline join
  split
  · exact ends
  · split <;> exact (String.toList_append ▸ List.suffix_append_of_suffix ends)

/-- What keeps the file at a path from being a source. -/
inductive SourceFault (host : Host) (before : World) (path : Path) : CaptureFault → Prop where
  | unseen : before.reply host 0 (fun files => files.stat path) = .error error →
      SourceFault host before path (.ofSystemError error)
  | directory : before.reply host 0 (fun files => files.stat path) = .ok stat →
      stat.kind = .directory → SourceFault host before path .isDirectory
  | tooLarge : before.reply host 0 (fun files => files.stat path) = .ok stat →
      stat.kind ≠ .directory → maxSourceSize < stat.size →
      SourceFault host before path (.tooLarge stat.size)
  | closed : before.reply host 0 (fun files => files.stat path) = .ok stat →
      stat.kind ≠ .directory → stat.size ≤ maxSourceSize →
      before.reply host 1 (fun files => (files.find path).map fun _ => ()) = .error error →
      SourceFault host before path (.system error)

/-- The file at a path is a source. -/
def ValidSource (host : Host) (before : World) (path : Path) : Prop :=
  ∃ stat, before.reply host 0 (fun files => files.stat path) = .ok stat ∧ stat.kind ≠ .directory ∧
    stat.size ≤ maxSourceSize ∧
    before.reply host 1 (fun files => (files.find path).map fun _ => ()) = .ok ()

/-- What is wrong with what a program has left. -/
inductive Finished.Fault (finished : Finished) : CaptureFault → Prop where
  | exited : finished.status ≠ .code 0 → Fault finished (.exited finished.status finished.errors)
  | notText : finished.status = .code 0 → Text.ofBytes finished.output = .error fault →
      Fault finished (.notText fault)
  | malformed : finished.status = .code 0 → Text.ofBytes finished.output = .ok text →
      Capture.deserialize text = .error fault → Fault finished (.malformed fault)

/-- What keeps a program that is asked for the tokens of a file from giving them. -/
inductive CommandFault (host : Host) (files : FileSystem) (program : String) (args : List String)
    (path : Path) : CaptureFault → Prop where
  | unavailable : host.execute files program (args ++ [path.text]) = .error error →
      CommandFault host files program args path (.unavailable program error)
  | unusable : host.execute files program (args ++ [path.text]) = .ok finished →
      finished.Fault fault → CommandFault host files program args path fault

/-- A capture fails at the source, or at the program that is then asked. -/
def CaptureStageFault (host : Host) (before : World) (program : String) (args : List String)
    (path : Path) (fault : CaptureFault) : Prop :=
  SourceFault host before path fault ∨
    ValidSource host before path ∧ CommandFault host before.files program args path fault

/-- The path leads to a text that is no document of tokens. -/
def BaselineFault (host : Host) (before : World) (path : Path) (fault : DocumentFault) : Prop :=
  ∃ stat text, before.reply host 0 (fun files => files.stat path) = .ok stat ∧
    before.reply host 1 (fun files => files.read path) = .ok text.toUTF8 ∧
    Capture.deserialize text = .error fault

variable {host : Host} {before after : World} {failure : Option Failure} {path : Path}

theorem validSource_or_sourceFault (host : Host) (before : World) (path : Path) :
    ValidSource host before path ∨ ∃ fault, SourceFault host before path fault := by
  cases seen : before.reply host 0 (fun files => files.stat path) with
  | error error => exact .inr ⟨_, .unseen seen⟩
  | ok stat =>
    by_cases folder : stat.kind = .directory
    · exact .inr ⟨_, .directory seen folder⟩
    rcases Nat.lt_or_ge maxSourceSize stat.size with large | fits
    · exact .inr ⟨_, .tooLarge seen folder large⟩
    cases opened : before.reply host 1 (fun files => (files.find path).map fun _ => ()) with
    | error error => exact .inr ⟨_, .closed seen folder fits opened⟩
    | ok => exact .inl ⟨stat, seen, folder, fits, opened⟩

theorem fails_validateSource (fault : SourceFault host before path reason) :
    ∃ after, Fails host (validateSource path) before (some (.capture path reason)) after := by
  have looked := before.look_eq host fun files => files.stat path
  cases fault with
  | unseen refused =>
    refine ⟨before.tick, Action.fails_request_bind.mpr ?_⟩
    rw [Request.perform, looked, refused]
    exact Action.fails_throw.mpr ⟨rfl, rfl⟩
  | directory seen folder =>
    refine ⟨before.tick, Action.fails_request_bind.mpr ?_⟩
    rw [Request.perform, looked, seen]
    simp only [folder]
    exact Action.fails_throw.mpr ⟨rfl, rfl⟩
  | tooLarge seen folder large =>
    refine ⟨before.tick, Action.fails_request_bind.mpr ?_⟩
    rw [Request.perform, looked, seen]
    simp only [folder, large]
    exact Action.fails_throw.mpr ⟨rfl, rfl⟩
  | closed seen folder fits refused =>
    refine ⟨before.tick.tick, Action.fails_request_bind.mpr ?_⟩
    rw [Request.perform, looked, seen]
    simp only [folder, Nat.not_lt.mpr fits]
    refine Action.fails_request_bind.mpr ?_
    rw [Request.perform, World.look_eq, World.reply_tick, refused]
    exact Action.fails_throw.mpr ⟨rfl, rfl⟩

theorem returns_validateSource (valid : ValidSource host before path) :
    ∃ after, Returns host (validateSource path) before () after := by
  obtain ⟨stat, seen, folder, fits, opened⟩ := valid
  have looked := before.look_eq host fun files => files.stat path
  refine ⟨before.tick.tick, Action.returns_request_bind.mpr ?_⟩
  rw [Request.perform, looked, seen]
  simp only [folder, Nat.not_lt.mpr fits]
  refine Action.returns_request_bind.mpr ?_
  rw [Request.perform, World.look_eq, World.reply_tick, opened]
  exact Action.returns_pure.mpr ⟨rfl, rfl⟩

theorem returns_validateSource_iff :
    (∃ after, Returns host (validateSource path) before () after) ↔ ValidSource host before path := by
  refine ⟨fun ⟨after, returned⟩ => ?_, returns_validateSource⟩
  rcases validSource_or_sourceFault host before path with valid | ⟨fault, wrong⟩
  · exact valid
  · obtain ⟨after', failed⟩ := fails_validateSource wrong
    exact absurd returned (Action.not_returns_of_fails failed _ _)

theorem sourceFault_of_fails (failed : Fails host (validateSource path) before failure after) :
    ∃ fault, failure = some (.capture path fault) ∧ SourceFault host before path fault := by
  rcases validSource_or_sourceFault host before path with valid | ⟨fault, wrong⟩
  · obtain ⟨after', returned⟩ := returns_validateSource valid
    exact absurd returned (Action.not_returns_of_fails failed _ _)
  · obtain ⟨after', failed'⟩ := fails_validateSource wrong
    exact ⟨fault, failed.unique failed', wrong⟩

theorem Finished.capture_of_text {finished : Finished} (good : finished.status = .code 0)
    (legible : Text.ofBytes finished.output = .ok text) :
    finished.capture = (Capture.deserialize text).mapError .malformed := by
  simp only [Finished.capture, ExitStatus.succeeded, good, legible]
  rfl

theorem Finished.Fault.capture {finished : Finished} (wrong : finished.Fault fault) :
    finished.capture = .error fault := by
  cases wrong with
  | exited bad => simp only [Finished.capture, ExitStatus.succeeded, bad]; rfl
  | notText good illegible =>
    simp only [Finished.capture, ExitStatus.succeeded, good, illegible]
    rfl
  | malformed good legible wrong => rw [capture_of_text good legible, wrong, mapError_error]

theorem Finished.fault_of_capture {finished : Finished} (failed : finished.capture = .error fault) :
    finished.Fault fault := by
  by_cases good : finished.status = .code 0
  · cases decoded : Text.ofBytes finished.output with
    | error wrong =>
      cases failed.symm.trans (Fault.notText good decoded).capture
      exact .notText good decoded
    | ok text =>
      rw [capture_of_text good decoded] at failed
      cases parsed : Capture.deserialize text with
      | error wrong =>
        rw [parsed] at failed
        cases failed
        exact .malformed good decoded parsed
      | ok capture =>
        rw [parsed] at failed
        cases failed
  · cases failed.symm.trans (Fault.exited good).capture
    exact .exited good

section Command

variable {program : String} {args : List String}

theorem fails_tokens (fault : CommandFault host before.files program args path reason) :
    ∃ after, Fails host ((Tokenizer.command program args).tokens path) before
      (some (.capture path reason)) after := by
  refine ⟨{ before with events := before.events ++ [.running program path] },
    Action.fails_request_bind.mpr (Action.fails_request_bind.mpr ?_)⟩
  cases fault with
  | unavailable refused =>
    simp only [Request.perform, refused]
    exact Action.fails_throw.mpr ⟨rfl, rfl⟩
  | unusable ended wrong =>
    simp only [Request.perform, ended, wrong.capture]
    rfl

theorem returns_tokens (ended : host.execute before.files program (args ++ [path.text]) = .ok finished)
    (printed : finished.capture = .ok capture) :
    ∃ after, Returns host ((Tokenizer.command program args).tokens path) before capture after := by
  refine ⟨{ before with events := before.events ++ [.running program path] },
    Action.returns_request_bind.mpr (Action.returns_request_bind.mpr ?_)⟩
  simp only [Request.perform, ended, printed]
  rfl

theorem commandFault_of_fails
    (failed : Fails host ((Tokenizer.command program args).tokens path) before failure after) :
    ∃ fault, failure = some (.capture path fault) ∧
      CommandFault host before.files program args path fault := by
  cases ended : host.execute before.files program (args ++ [path.text]) with
  | error error =>
    obtain ⟨after', failed'⟩ := fails_tokens (.unavailable ended)
    exact ⟨_, failed.unique failed', .unavailable ended⟩
  | ok finished =>
    cases printed : finished.capture with
    | error fault =>
      have wrong := Finished.fault_of_capture printed
      obtain ⟨after', failed'⟩ := fails_tokens (.unusable ended wrong)
      exact ⟨fault, failed.unique failed', .unusable ended wrong⟩
    | ok capture =>
      obtain ⟨after', returned⟩ := returns_tokens ended printed
      exact absurd returned (Action.not_returns_of_fails failed _ _)

variable {colorizer : Colorizer}

/-- A capture by a program fails just for what is wrong with the source or the program. -/
theorem fails_capture_iff (isCommand : colorizer.tokenizer = .command program args) :
    (∃ after, Fails host (colorizer.capture path) before failure after) ↔
      ∃ fault, failure = some (.capture path fault) ∧
        CaptureStageFault host before program args path fault := by
  simp only [Colorizer.capture, isCommand]
  constructor
  · rintro ⟨after, failed⟩
    rcases Action.fails_bind.mp failed with failed | ⟨⟨⟩, valid, validated, failed⟩
    · obtain ⟨fault, rfl, wrong⟩ := sourceFault_of_fails failed
      exact ⟨fault, rfl, .inl wrong⟩
    rcases Action.fails_bind.mp failed with failed | ⟨tokens, tokenized, -, failed⟩
    · obtain ⟨fault, rfl, wrong⟩ := commandFault_of_fails failed
      rw [(source_of_validateSource validated).2] at wrong
      exact ⟨fault, rfl, .inr ⟨returns_validateSource_iff.mp ⟨valid, validated⟩, wrong⟩⟩
    · exact absurd failed Action.not_fails_pure
  · rintro ⟨fault, rfl, wrong | ⟨valid, wrong⟩⟩
    · obtain ⟨after, failed⟩ := fails_validateSource wrong
      exact ⟨after, Action.fails_bind.mpr (.inl failed)⟩
    · obtain ⟨valid, validated⟩ := returns_validateSource valid
      rw [← (source_of_validateSource validated).2] at wrong
      obtain ⟨after, failed⟩ := fails_tokens wrong
      exact ⟨after, Action.fails_bind.mpr (.inr ⟨(), valid, validated,
        Action.fails_bind.mpr (.inl failed)⟩)⟩

end Command

theorem Capture.system_of_failed_save {capture : Capture}
    (failed : Fails host (capture.save path format) before failure after) :
    ∃ place error, failure = some (.system place error) := by
  obtain ⟨ended, after', ran, rfl | ⟨place, error, rfl⟩⟩ := ends_of_save capture path format host before
  · exact absurd ran (Action.not_returns_of_fails failed _ _)
  · have failed' : Fails host (capture.save path format) before (some (.system place error)) after' := ran
    exact ⟨place, error, failed.unique failed'⟩

theorem Capture.fails_load (wasRead : before.reply host 0 (fun files => files.read path) = .ok text.toUTF8)
    (wrong : deserialize text = .error fault) :
    ∃ after, Fails host (load path) before (some (.format path.text fault)) after := by
  have looked := run_readText_iff.mpr ((before.look_eq host fun files => files.read path).trans
    (congrArg (·, before.tick) wasRead))
  refine ⟨before.tick, Action.fails_bind.mpr (.inr ⟨text, _, Action.returns_on.mpr looked, ?_⟩)⟩
  rw [wrong]
  exact Action.fails_throw.mpr ⟨rfl, rfl⟩

theorem Routine.answers_readText (path : Path) (host : Host) (before : World) :
    ((readText path).run host before).1 ≠ none := by
  rcases ran : (read path).run host before with ⟨_ | answer, after⟩
  · exact absurd (congrArg Prod.fst ran) (Option.some_ne_none _)
  · rw [readText, run_bind, ran]
    cases answer <;> exact Option.some_ne_none _

theorem Capture.failure_of_load (failed : Fails host (load path) before failure after) :
    (∃ error, failure = some (.system path error)) ∨
      ∃ text fault, failure = some (.format path.text fault) ∧
        before.reply host 0 (fun files => files.read path) = .ok text.toUTF8 ∧
        deserialize text = .error fault := by
  rcases Action.fails_bind.mp failed with failed | ⟨text, loaded, wasRead, failed⟩
  · obtain ⟨error, rfl, -⟩ := Action.error_of_fails_on failed (Routine.answers_readText path host before)
    exact .inl ⟨error, rfl⟩
  · have looked := run_readText_iff.mp (Action.returns_on.mp wasRead)
    rw [World.look_eq] at looked
    cases parsed : deserialize text with
    | error fault =>
      rw [parsed] at failed
      exact .inr ⟨text, fault, (Action.fails_throw.mp failed).1, (Prod.mk.inj looked).1, parsed⟩
    | ok capture =>
      rw [parsed] at failed
      exact absurd failed Action.not_fails_pure

theorem system_of_failed_isThere (failed : Fails host (isThere path) before failure after) :
    ∃ error, failure = some (.system path error) := by
  rcases Action.fails_bind.mp failed with failed | ⟨answer, looked, -, failed⟩
  · exact absurd failed (Action.not_fails_request _)
  split at failed
  · exact absurd failed Action.not_fails_pure
  · exact absurd failed Action.not_fails_pure
  · exact ⟨_, (Action.fails_throw.mp failed).1⟩

theorem returns_isThere_true_iff : Returns host (isThere path) before true after ↔
    (∃ stat, before.reply host 0 (fun files => files.stat path) = .ok stat) ∧ before.tick = after := by
  have looked := before.look_eq host fun files => files.stat path
  constructor
  · intro returned
    have rest := Action.returns_request_bind.mp returned
    rw [Request.perform, looked] at rest
    cases answered : before.reply host 0 fun files => files.stat path with
    | ok stat =>
      rw [answered] at rest
      exact ⟨⟨stat, rfl⟩, (Action.returns_pure.mp rest).2⟩
    | error error =>
      rw [answered] at rest
      dsimp only at rest
      split at rest
      next same => cases same
      · cases (Action.returns_pure.mp rest).1
      · exact absurd rest (Action.not_returns_throw _)
  · rintro ⟨⟨stat, there⟩, rfl⟩
    refine Action.returns_request_bind.mpr ?_
    rw [Request.perform, looked, there]
    exact Action.returns_pure.mpr ⟨rfl, rfl⟩

namespace SnapshotRunner

variable {runner : SnapshotRunner} {fixture : Path} {current : Capture}

theorem system_of_failed_write {baseline : Path}
    (failed : Fails host (runner.write current baseline event) before failure after) :
    ∃ place error, failure = some (.system place error) := by
  rcases Action.fails_bind.mp failed with failed | ⟨⟨⟩, saved, -, failed⟩
  · exact Capture.system_of_failed_save failed
  · exact absurd failed (Action.not_fails_request _)

theorem system_of_failed_settle
    (failed : Fails host (runner.settle fixture former current) before failure after) :
    ∃ place error, failure = some (.system place error) := by
  unfold settle at failed
  cases classified : former.classify current
  all_goals
    simp only [classified] at failed
    rcases Action.fails_bind.mp failed with failed | ⟨⟨⟩, told, -, failed⟩
    · exact absurd failed (Action.not_fails_request _)
  case identical => exact absurd failed Action.not_fails_pure
  all_goals
    rcases Action.fails_bind.mp failed with failed | ⟨⟨⟩, written, -, failed⟩
    · exact system_of_failed_write failed
    · exact absurd failed Action.not_fails_pure

/-- A check fails for a document only where it is there and is none. -/
theorem failure_of_check (failed : Fails host (runner.check fixture current) before failure after) :
    (∃ place error, failure = some (.system place error)) ∨
      ∃ fault, failure = some (.format (runner.baselineOf fixture).text fault) ∧
        BaselineFault host before (runner.baselineOf fixture) fault := by
  rcases Action.fails_bind.mp failed with failed | ⟨there, looked, asked, failed⟩
  · exact .inl ⟨_, system_of_failed_isThere failed⟩
  cases there with
  | true =>
    obtain ⟨⟨stat, there⟩, rfl⟩ := returns_isThere_true_iff.mp asked
    rcases Action.fails_bind.mp failed with failed | ⟨former, loaded, -, failed⟩
    · rcases Capture.failure_of_load failed with ⟨error, rfl⟩ | ⟨text, fault, rfl, wasRead, wrong⟩
      · exact .inl ⟨_, error, rfl⟩
      · rw [World.reply_tick] at wasRead
        exact .inr ⟨fault, rfl, stat, text, there, wasRead, wrong⟩
    · exact .inl (system_of_failed_settle failed)
  | false =>
    rcases Action.fails_bind.mp failed with failed | ⟨⟨⟩, written, -, failed⟩
    · exact .inl (system_of_failed_write failed)
    · exact absurd failed Action.not_fails_pure

theorem fails_check (current : Capture) (wrong : BaselineFault host before (runner.baselineOf fixture) fault) :
    ∃ after, Fails host (runner.check fixture current) before
      (some (.format (runner.baselineOf fixture).text fault)) after := by
  obtain ⟨stat, text, there, wasRead, parsed⟩ := wrong
  have seen := returns_isThere_true_iff.mpr ⟨⟨stat, there⟩, rfl⟩
  rw [← World.reply_tick] at wasRead
  obtain ⟨after, failed⟩ := Capture.fails_load wasRead parsed
  exact ⟨after, Action.fails_bind.mpr (.inr ⟨true, _, seen, Action.fails_bind.mpr (.inl failed)⟩)⟩

/-- What a failed run fails for. -/
theorem failure_of_run (isCommand : runner.colorizer.tokenizer = .command program args)
    (failed : Fails host (runner.run mode fixture) before failure after) :
    (∃ fault, failure = some (.capture fixture fault) ∧
        CaptureStageFault host before program args fixture fault ∧ after.files = before.files) ∨
      (∃ origin fault current captured, failure = some (.format origin fault) ∧
        origin = (runner.baselineOf fixture).text ∧ mode = .check ∧
        Returns host (runner.colorizer.capture fixture) before current captured ∧
        BaselineFault host captured (runner.baselineOf fixture) fault) ∨
      ∃ place error, failure = some (.system place error) := by
  rcases Action.fails_bind.mp failed with failed | ⟨current, captured, capture, failed⟩
  · obtain ⟨fault, rfl, wrong⟩ := (fails_capture_iff isCommand).mp ⟨after, failed⟩
    exact .inl ⟨fault, rfl, wrong, Action.files_of_fails (runner.colorizer.still_capture _) failed⟩
  cases mode with
  | check =>
    rcases failure_of_check failed with refused | ⟨fault, rfl, wrong⟩
    · exact .inr (.inr refused)
    · exact .inr (.inl ⟨_, fault, current, captured, rfl, rfl, rfl, capture, wrong⟩)
  | «export» =>
    rcases Action.fails_bind.mp failed with failed | ⟨⟨⟩, written, -, failed⟩
    · exact .inr (.inr (system_of_failed_write failed))
    · exact absurd failed Action.not_fails_pure

/-- How a run that asks a program for tokens ends, by the stage that is at fault. -/
structure Blamed (host : Host) (before : World) (runner : SnapshotRunner) (program : String)
    (args : List String) (mode : Mode) (fixture : Path) (result : Except Failure Outcome)
    (after : World) : Prop where
  capture_iff : ∀ path fault, result = .error (.capture path fault) ↔
    path = fixture ∧ CaptureStageFault host before program args fixture fault
  untouched : ∀ path fault, result = .error (.capture path fault) → after.files = before.files
  format_iff : ∀ origin fault, result = .error (.format origin fault) ↔
    mode = .check ∧ origin = (runner.baselineOf fixture).text ∧ ∃ current captured,
      Returns host (runner.colorizer.capture fixture) before current captured ∧
      BaselineFault host captured (runner.baselineOf fixture) fault
  /-- No document is at fault that was to be written. -/
  stored : ∀ origin fault, result = .error (.format origin fault) → origin ≠ "<serializer>"
  others : ∀ failure, result = .error failure →
    (∃ path fault, failure = .capture path fault) ∨ (∃ origin fault, failure = .format origin fault) ∨
      ∃ place error, failure = .system place error

theorem fails_run_of_capture (mode : Mode) (isCommand : runner.colorizer.tokenizer = .command program args)
    (wrong : CaptureStageFault host before program args fixture fault) :
    ∃ after, Fails host (runner.run mode fixture) before (some (.capture fixture fault)) after := by
  obtain ⟨after, failed⟩ := (fails_capture_iff isCommand).mpr ⟨fault, rfl, wrong⟩
  exact ⟨after, Action.fails_bind.mpr (.inl failed)⟩

theorem fails_run_of_baseline
    (capture : Returns host (runner.colorizer.capture fixture) before current captured)
    (wrong : BaselineFault host captured (runner.baselineOf fixture) fault) :
    ∃ after, Fails host (runner.run .check fixture) before
      (some (.format (runner.baselineOf fixture).text fault)) after := by
  obtain ⟨after, failed⟩ := fails_check current wrong
  exact ⟨after, Action.fails_bind.mpr (.inr ⟨current, captured, capture, failed⟩)⟩

theorem blamed_of_returns (isCommand : runner.colorizer.tokenizer = .command program args)
    (returned : Returns host (runner.run mode fixture) before outcome after) :
    Blamed host before runner program args mode fixture (.ok outcome) after where
  capture_iff path fault := by
    refine ⟨nofun, fun ⟨_, wrong⟩ => ?_⟩
    obtain ⟨after', failed⟩ := fails_run_of_capture mode isCommand wrong
    exact absurd returned (Action.not_returns_of_fails failed _ _)
  untouched := nofun
  format_iff origin fault := by
    refine ⟨nofun, ?_⟩
    rintro ⟨rfl, -, current, captured, capture, wrong⟩
    obtain ⟨after', failed⟩ := fails_run_of_baseline capture wrong
    exact absurd returned (Action.not_returns_of_fails failed _ _)
  stored := nofun
  others := nofun

theorem blamed_of_fails {failure : Failure}
    (isCommand : runner.colorizer.tokenizer = .command program args)
    (failed : Fails host (runner.run mode fixture) before (some failure) after) :
    Blamed host before runner program args mode fixture (.error failure) after := by
  have named := failure_of_run isCommand failed
  constructor
  case capture_iff =>
    intro path fault
    constructor
    · rintro ⟨⟩
      rcases named with ⟨_, ⟨⟩, wrong, -⟩ | ⟨_, _, _, _, ⟨⟩, -⟩ | ⟨_, _, ⟨⟩⟩
      exact ⟨rfl, wrong⟩
    · rintro ⟨rfl, wrong⟩
      obtain ⟨after', failed'⟩ := fails_run_of_capture mode isCommand wrong
      exact congrArg Except.error (Option.some.inj (failed.unique failed'))
  case untouched =>
    rintro path fault ⟨⟩
    rcases named with ⟨_, -, -, unchanged⟩ | ⟨_, _, _, _, ⟨⟩, -⟩ | ⟨_, _, ⟨⟩⟩
    exact unchanged
  case format_iff =>
    intro origin fault
    constructor
    · rintro ⟨⟩
      rcases named with
        ⟨_, ⟨⟩, -⟩ | ⟨_, _, current, captured, ⟨⟩, isText, isCheck, capture, wrong⟩ | ⟨_, _, ⟨⟩⟩
      exact ⟨isCheck, isText, current, captured, capture, wrong⟩
    · rintro ⟨isCheck, isText, current, captured, capture, wrong⟩
      subst isCheck
      obtain ⟨after', failed'⟩ := fails_run_of_baseline capture wrong
      rw [isText]
      exact congrArg Except.error (Option.some.inj (failed.unique failed'))
  case stored =>
    rintro origin fault ⟨⟩ same
    rcases named with ⟨_, ⟨⟩, -⟩ | ⟨_, _, _, _, ⟨⟩, isText, -⟩ | ⟨_, _, ⟨⟩⟩
    have suffix := runner.resultsDir.suffix_baseline fixture
    rw [← baselineOf, ← isText, same] at suffix
    exact absurd suffix (by decide)
  case others =>
    rintro failure ⟨⟩
    rcases named with ⟨fault, ⟨⟩, -⟩ | ⟨origin, fault, _, _, ⟨⟩, -⟩ | ⟨place, error, ⟨⟩⟩
    · exact .inl ⟨_, _, rfl⟩
    · exact .inr (.inl ⟨_, _, rfl⟩)
    · exact .inr (.inr ⟨_, _, rfl⟩)

/-- The kind of a failure tells the stage it is from. -/
theorem run_blames_stage (host : Host) (before : World) (program : String) (args : List String)
    (format : Format) (themes : List String) (results : Path) (mode : Mode) (fixture : Path) :
    ∃ result after,
      ((⟨⟨.command program args, format, themes⟩, results⟩ : SnapshotRunner).run mode fixture).run.run
        host before = (some result, after) ∧
      Blamed host before ⟨⟨.command program args, format, themes⟩, results⟩ program args mode fixture
        result after := by
  generalize made : (⟨⟨.command program args, format, themes⟩, results⟩ : SnapshotRunner) = runner
  have isCommand : runner.colorizer.tokenizer = .command program args := made ▸ rfl
  rcases Action.returns_or_fails host (runner.run mode fixture) before with
    ⟨outcome, after, returned⟩ | ⟨failure, after, failed⟩
  · exact ⟨.ok outcome, after, returned, blamed_of_returns isCommand returned⟩
  · have named := failure_of_run isCommand failed
    obtain ⟨failure, rfl⟩ : ∃ failure', failure = some failure' := by
      rcases named with ⟨fault, rfl, -⟩ | ⟨origin, fault, -, -, rfl, -⟩ | ⟨place, error, rfl⟩ <;> exact ⟨_, rfl⟩
    exact ⟨.error failure, after, failed, blamed_of_fails isCommand failed⟩

end SnapshotRunner

end Colorization
