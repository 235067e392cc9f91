import Colorization.CommandLine.Reading
import Colorization.Config.Loading
import Colorization.Snapshot

/-! From a command line to what is printed and the exit code. -/
namespace Colorization

/-- What was being done when a failure came up. -/
inductive Stage where
  | colorizing (file : Path)
  | colorizingFiles
  | colorizingFixtures
  | loadingBaseline (path : Path)
deriving DecidableEq

def Stage.message : Stage → String
  | .colorizing file => s!"Failed to colorize {file.text}"
  | .colorizingFiles => "Failed to colorize files"
  | .colorizingFixtures => "Failed to colorize fixtures"
  | .loadingBaseline path => s!"Failed to load baseline {path.text}"

/-- Why a task came to no end. -/
inductive Trouble where
  | config (fault : Config.LoadFault)
  | task (error : TaskError)
  | noTokenizer
  | work (stage : Option Stage) (failure : Failure)

def Trouble.message : Trouble → String
  | .config fault => fault.message
  | .task error => error.message
  | .noTokenizer =>
    "No tokenizer configured: set `tokenizer.program` in the config or pass --tokenizer"
  | .work none failure => failure.chain
  | .work (some stage) failure => stage.message ++ ": " ++ failure.chain

/-- The work for a task; it answers whether all was found well. -/
abbrev Errand := ExceptT Trouble Program

namespace Errand

def during (stage : Option Stage) (undertaking : Undertaking α) : Errand α :=
  ExceptT.mk do return (← undertaking.run).mapError (.work stage)

def perform (routine : Routine α) : Errand α := ExceptT.mk (.act routine fun x => .done (.ok x))

def printLine (text : String) : Errand Unit := perform (Routine.print (text ++ "\n"))

end Errand

open Errand (during perform printLine)

namespace BatchReport

def text (report : BatchReport) (noun : String) : String :=
  s!"Colorized {report.fileCount} {noun} with {report.tokenCount} total tokens\n" ++
    String.join (report.failures.map fun entry =>
      s!"  failed: {entry.1.text}: {entry.2.message}\n")

end BatchReport

namespace SuiteReport

/-- A label in a column of twenty characters. -/
def column (label : String) : String :=
  label ++ String.ofList (List.replicate (20 - label.length) ' ')

def line : Path × Except Failure Outcome → String
  | (fixture, .error failure) =>
    column "ERROR" ++ s!" {fixture.text}: {failure.message}\n"
  | (fixture, .ok outcome) =>
    column outcome.label ++ s!" {fixture.text}\n" ++
      match outcome with
      | .updatedFail comparison => comparison.report ++ "\n"
      | _ => ""

def closing (report : SuiteReport) : Mode → String
  | .export =>
    s!"Successfully exported {report.passed} colorization files ({report.failed} failed)\n"
  | .check => s!"{report.passed} passed, {report.failed} failed\n"

def text (report : SuiteReport) (mode : Mode) : String :=
  String.join (report.fixtures.map line) ++ report.closing mode

end SuiteReport

/-- A comparison as the command line shows it. -/
def Comparison.text (comparison : Comparison) (json : Bool) : String :=
  if json then comparison.toJson.write (.indented [' ', ' ']) ++ "\n"
  else if comparison.identical then "Colorization matches baseline!\n"
  else
    s!"Found {comparison.differences.length} differences in colorization\n\n" ++ comparison.report

namespace Colorizer

/-- Differences are shown before the baseline is written. -/
def compareWithBaseline (colorizer : Colorizer) (baseline source : Path) (update json : Bool) :
    Errand Bool := do
  let former ← during (some (.loadingBaseline baseline)) (Capture.load baseline).undertake
  let current ← during (some (.colorizing source)) (colorizer.capture source).undertake
  let comparison := former.compare current
  perform (Routine.print (comparison.text json))
  if update && !comparison.identical then
    during none (current.save baseline colorizer.format).undertake
    printLine s!"Updated baseline {baseline.text}"
  return comparison.identical

/-- Carries out a task that needs tokens. -/
def carryOut (colorizer : Colorizer) (extensions : List String) : Task → Errand Bool
  | .colorize file output => do
    let tokens ← during (some (.colorizing file)) (colorizer.captureToFile file output).undertake
    printLine s!"Colorization complete! {tokens.length} tokens saved to {output.text}"
    return true
  | .batch files outDir => do
    let report ← during (some .colorizingFiles) (colorizer.captureMany files (some outDir))
    perform (Routine.print (report.text "files"))
    return report.isComplete
  | .fixtures fixturesDir resultsDir => do
    let report ← during (some .colorizingFixtures)
      (colorizer.captureFixtures fixturesDir resultsDir extensions)
    perform (Routine.print (report.text "fixture files"))
    return report.isComplete
  | .compare baseline source update json =>
    colorizer.compareWithBaseline baseline source update json
  | .suite fixturesDir resultsDir mode => do
    let fixtures ← during none (discoverFixtures fixturesDir extensions).undertake
    if mode = .export then perform (Routine.tell (.exporting fixtures.length))
    let report ← (SnapshotRunner.runSuite ⟨colorizer, resultsDir⟩ fixtures mode : Program _)
    perform (Routine.print (report.text mode))
    return report.isSuccess
  | .showConfig => return true

end Colorizer

namespace CommandLine

/-- Carries out what a command line asks for. -/
def Arguments.execute (environment : Environment) (arguments : Arguments) : Errand Bool := do
  let config ← ExceptT.mk (.act (Config.load environment arguments.config) fun loaded =>
    .done (loaded.mapError .config))
  let (task, config) ← ExceptT.mk (pure ((arguments.resolve config).mapError .task))
  if task = .showConfig then
    perform (Routine.print config.toYaml)
    return true
  else
    match config.tokenizer.tokenizer? with
    | none => throw .noTokenizer
    | some tokenizer =>
      perform (Routine.tell (.usingTokenizer (tokenizer.program?.getD "")))
      let colorizer : Colorizer := ⟨tokenizer, config.format, config.themes⟩
      colorizer.carryOut config.fixtureExtensions task

def version : String := appName ++ " 0.1.0"

/-- A reminder of the commands. -/
def usage : String :=
  let commands := "|".intercalate (Verb.all.map Verb.name)
  s!"Usage: {appName} [OPTIONS] <{commands}>"

def UsageError.describe : UsageError → Routine Unit
  | .showVersion => Routine.print (version ++ "\n")
  | .showHelp => Routine.print (usage ++ "\n")
  | _ => Routine.printError (usage ++ "\n")

/-- The whole run: the exit code is 0 if all was found well, 2 if the command line could
not be read, else 1. -/
def run (environment : Environment) (args : List String) : Program Nat := do
  match read args with
  | .error error =>
    (error.describe : Program Unit)
    return error.exitCode
  | .ok arguments =>
    match ← (ensureLogsDir environment : Program _) with
    | .ok _ => pure ()
    | .error fault =>
      (Routine.printError
        s!"Warning: Could not initialize file logging: {fault.message}\n" : Program Unit)
    match ← (arguments.execute environment).run with
    | .ok true => return 0
    | .ok false => return 1
    | .error trouble =>
      (Routine.printError s!"Colorization failed: {trouble.message}\n" : Program Unit)
      return 1

end CommandLine

end Colorization
