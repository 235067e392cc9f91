import Colorization.CommandLine.Arguments
import Colorization.Config.Basic

/-! The work that a command line and the settings ask for together. -/
namespace Colorization

/-- Whether a run checks fixtures against their baselines or writes them anew. -/
inductive Mode where
  | check | export
deriving DecidableEq

inductive Task where
  | colorize (file output : Path)
  | batch (files : List Path) (outDir : Path)
  | fixtures (fixturesDir resultsDir : Path)
  | compare (baseline source : Path) (update json : Bool)
  | suite (fixturesDir resultsDir : Path) (mode : Mode)
  | showConfig
deriving DecidableEq

inductive TaskError where
  | argsWithoutProgram
  | overwritesSource (output : Path)
deriving DecidableEq

def TaskError.message : TaskError → String
  | .argsWithoutProgram => "--tokenizer-arg requires a tokenizer program"
  | .overwritesSource output => s!"Output path {output.text} would overwrite the source file"

namespace CommandLine.Arguments

/-- A program given here comes with its own arguments, possibly none. -/
def tokenizerCommand (arguments : Arguments) (command : TokenizerCommand) :
    Except TaskError TokenizerCommand :=
  match arguments.tokenizer with
  | some program => .ok ⟨some program, arguments.tokenizerArgs⟩
  | none =>
    if arguments.tokenizerArgs.isEmpty then .ok command
    else if command.program.isNone then .error .argsWithoutProgram
    else .ok { command with args := arguments.tokenizerArgs }

/-- The settings with what the command line says in their place. -/
def override (arguments : Arguments) (config : Config) : Except TaskError Config := do
  let tokenizer ← arguments.tokenizerCommand config.tokenizer
  return {
    config with
    tokenizer
    themes := if arguments.themes.isEmpty then config.themes else arguments.themes
    format := if arguments.compact then .compact else config.format }

def task (config : Config) : Command → Except TaskError Task
  | .colorize file output =>
    let output := output.getD file.colorized
    if output.same file then .error (.overwritesSource output) else .ok (.colorize file output)
  | .batch files outDir => .ok (.batch files outDir)
  | .fixtures outDir => .ok (.fixtures config.fixturesDir (outDir.getD config.resultsDir))
  | .compare baseline source update json => .ok (.compare baseline source update json)
  | .test exporting =>
    .ok (.suite config.fixturesDir config.resultsDir (if exporting then .export else .check))
  | .export outDir => .ok (.suite config.fixturesDir (outDir.getD config.exportsDir) .export)
  | .config => .ok .showConfig

def resolve (arguments : Arguments) (config : Config) : Except TaskError (Task × Config) := do
  let config ← arguments.override config
  return (← task config arguments.command, config)

end CommandLine.Arguments

end Colorization
