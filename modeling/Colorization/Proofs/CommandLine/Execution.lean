import Colorization.CommandLine.Execution
import Colorization.Proofs.Routine.Ends
import Colorization.Proofs.Routine.Fails

/-! From a command line to the work for its task, which is all that is left between the reading of
settings and the exit code. -/
namespace Colorization

open Colorization.Action (Returns Fails)
open Errand (during perform)

variable {host : Host} {before after : World}

namespace World

def shows (world : World) (channel : Channel) (text : String) : World :=
  { world with printed := world.printed ++ [(channel, text)] }

def hears (world : World) (event : Event) : World := { world with events := world.events ++ [event] }

end World

namespace Errand

theorem ends_during_iff {stage : Option Stage} {undertaking : Undertaking α} :
    (during stage undertaking).run.Ends host before result after ↔
      ∃ ended, undertaking.run.Ends host before ended after ∧
        result = ended.map fun ended => ended.mapError (.work stage) := by
  rw [during, ExceptT.run_mk, Program.ends_bind_iff]
  constructor
  · rintro (⟨ended, middle, ends, onward⟩ | ⟨rfl, ends⟩)
    · obtain ⟨rfl, rfl⟩ := Program.ends_done_iff.mp onward
      exact ⟨some ended, ends, rfl⟩
    · exact ⟨none, ends, rfl⟩
  · rintro ⟨_ | ended, ends, rfl⟩
    · exact .inr ⟨rfl, ends⟩
    · exact .inl ⟨ended, after, ends, .done⟩

/-- An errand that begins with an action goes on behind it, or ends with its failure. -/
theorem ends_during_bind_iff {stage : Option Stage} {action : Action α} {next : α → Errand β} :
    (during stage action.undertake >>= next).run.Ends host before result after ↔
      (∃ failure, Fails host action before failure after ∧
        result = failure.map fun failure => .error (.work stage failure)) ∨
      ∃ value middle, Returns host action before value middle ∧
        (next value).run.Ends host middle result after := by
  rw [Program.ends_except_bind_iff]
  simp only [ends_during_iff, Action.ends_undertake_iff]
  constructor
  · rintro (⟨value, middle, ⟨ended, ran, same⟩, onward⟩ | ⟨trouble, rfl, ended, ran, same⟩ |
      ⟨rfl, ended, ran, same⟩)
    · rcases ended with _ | failure | given <;> cases same
      exact .inr ⟨value, middle, ran, onward⟩
    · rcases ended with _ | failure | given <;> cases same
      exact .inl ⟨some failure, ran, rfl⟩
    · rcases ended with _ | failure | given <;> cases same
      exact .inl ⟨none, ran, rfl⟩
  · rintro (⟨_ | failure, fails, rfl⟩ | ⟨value, middle, returned, onward⟩)
    · exact .inr (.inr ⟨rfl, none, fails, rfl⟩)
    · exact .inr (.inl ⟨_, rfl, some (.error failure), fails, rfl⟩)
    · exact .inl ⟨value, middle, ⟨some (.ok value), returned, rfl⟩, onward⟩

/-- A routine that is carried out for what it does. -/
theorem ends_perform_bind_iff {routine : Routine α} {next : α → Errand β}
    (ran : routine.run host before = (some answer, middle)) :
    (perform routine >>= next).run.Ends host before result after ↔
      (next answer).run.Ends host middle result after :=
  Program.ends_act_of_run ran

end Errand

/-- The colorizer of settings with this tokenizer program. -/
def Config.colorizer (config : Config) (program : String) : Colorizer :=
  ⟨.command program config.tokenizer.args, config.format, config.themes⟩

/-- What an errand means for the exit code. -/
def Errand.exitCode : Except Trouble Bool → Nat
  | .ok true => 0
  | _ => 1

/-- Trouble is told before the exit. -/
def World.closed (world : World) : Option (Except Trouble Bool) → World
  | some (.error trouble) => world.shows .errors s!"Colorization failed: {trouble.message}\n"
  | _ => world

/-- That there are no logs is told. -/
def World.withLogs (world : World) : Except LogsFault Path → World
  | .ok _ => world
  | .error fault =>
    world.shows .errors s!"Warning: Could not initialize file logging: {fault.message}\n"

@[simp] theorem World.files_closed (world : World) (ended : Option (Except Trouble Bool)) :
    (world.closed ended).files = world.files := by
  unfold closed
  split <;> rfl

@[simp] theorem World.files_withLogs (world : World) (logs : Except LogsFault Path) :
    (world.withLogs logs).files = world.files := by
  unfold withLogs
  split <;> rfl

namespace CommandLine

open Errand (exitCode)

/-- The end of a run. -/
def exit : Except Trouble Bool → Program Nat
  | .ok true => .done 0
  | .ok false => .done 1
  | .error trouble =>
    .act (Routine.printError s!"Colorization failed: {trouble.message}\n") fun _ => .done 1

theorem ends_exit_iff (ended : Except Trouble Bool) :
    (exit ended).Ends host before result after ↔
      result = some (exitCode ended) ∧ after = before.closed (some ended) := by
  match ended with
  | .ok true | .ok false => exact Program.ends_done_iff
  | .error trouble => exact (Program.ends_act_of_run rfl).trans Program.ends_done_iff

theorem ends_bind_exit_iff {errand : Errand Bool} :
    (errand.run >>= exit).Ends host before result after ↔
      ∃ ended left, errand.run.Ends host before ended left ∧
        result = ended.map exitCode ∧ after = left.closed ended := by
  rw [Program.ends_bind_iff]
  constructor
  · rintro (⟨ended, left, ends, onward⟩ | ⟨rfl, ends⟩)
    · exact ⟨some ended, left, ends, (ends_exit_iff ended).mp onward⟩
    · exact ⟨none, after, ends, rfl, rfl⟩
  · rintro ⟨_ | ended, left, ends, rfl, rfl⟩
    · exact .inr ⟨rfl, ends⟩
    · exact .inl ⟨ended, left, ends, (ends_exit_iff ended).mpr ⟨rfl, rfl⟩⟩

/-- A command line that can be read is executed once the logs are seen to. -/
theorem ends_run_iff (isRead : read args = .ok arguments)
    (began : (ensureLogsDir environment).run host before = (some logs, logged)) :
    (run environment args).Ends host before result after ↔
      ∃ ended left, (arguments.execute environment).run.Ends host (logged.withLogs logs) ended left ∧
        result = ended.map exitCode ∧ after = left.closed ended := by
  unfold run
  rw [isRead]
  refine (Program.ends_act_of_run began).trans ?_
  cases logs with
  | ok path => exact ends_bind_exit_iff
  | error fault => exact (Program.ends_act_of_run rfl).trans ends_bind_exit_iff

/-- The command line asks for a task: it can be read, settings are there, and together they make up
the task, for which there is a tokenizer. -/
inductive Asks (environment : Environment) (args : List String) (host : Host) (before : World) (task : Task)
    (config : Config) (program : String) : World → Prop where
  | asks : read args = .ok arguments →
      (ensureLogsDir environment).run host before = (some logs, logged) →
      (Config.load environment arguments.config).run host (logged.withLogs logs) =
        (some (.ok settings), loaded) →
      arguments.resolve settings = .ok (task, config) → task ≠ .showConfig →
      config.tokenizer.program = some program →
      Asks environment args host before task config program (loaded.hears (.usingTokenizer program))

theorem ends_execute_iff {arguments : Arguments} {config : Config} {task : Task}
    (loaded : (Config.load environment arguments.config).run host before = (some (.ok settings), ready))
    (resolved : arguments.resolve settings = .ok (task, config))
    (isProgram : config.tokenizer.program = some program) (needed : task ≠ .showConfig) :
    (arguments.execute environment).run.Ends host before result after ↔
      ((config.colorizer program).carryOut config.fixtureExtensions task).run.Ends host
        (ready.hears (.usingTokenizer program)) result after := by
  unfold Arguments.execute
  refine (Program.ends_act_of_run loaded).trans ?_
  simp only [Program.bind, mapError_ok, ExceptT.bindCont]
  rw [resolved]
  change Program.Ends host (ExceptT.run (if task = .showConfig then _ else _)) _ _ _ ↔ _
  rw [if_neg needed, TokenizerCommand.tokenizer?, isProgram]
  exact Errand.ends_perform_bind_iff rfl

/-- What is asked for is done, and decides the exit code. -/
theorem ends_iff_of_asks (asks : Asks environment args host before task config program ready) :
    (run environment args).Ends host before result after ↔
      ∃ ended left, ((config.colorizer program).carryOut config.fixtureExtensions task).run.Ends host ready
          ended left ∧
        result = ended.map exitCode ∧ after = left.closed ended := by
  cases asks with
  | asks isRead began loaded resolved needed isProgram =>
    rw [ends_run_iff isRead began]
    simp only [ends_execute_iff loaded resolved isProgram needed]

end CommandLine

end Colorization
