import Colorization.Naming
import Colorization.Token.Document
import Colorization.Yaml.Printer

/-! Settings, and their text. -/
namespace Colorization

/-- An external program that prints the tokens of the file named by its last
argument. -/
structure TokenizerCommand where
  program : Option String
  args : List String
deriving DecidableEq

def TokenizerCommand.default : TokenizerCommand := ⟨none, []⟩

structure Config where
  fixturesDir : Path
  resultsDir : Path
  exportsDir : Path
  fixtureExtensions : List String
  format : Format
  themes : List String
  tokenizer : TokenizerCommand
deriving DecidableEq

def Format.name : Format → String
  | .pretty => "pretty"
  | .compact => "compact"

namespace Config

def default : Config where
  fixturesDir := ⟨"test/colorize-fixtures"⟩
  resultsDir := ⟨"test/colorize-results"⟩
  exportsDir := ⟨"test/colorize-exports"⟩
  fixtureExtensions := []
  format := .pretty
  themes := []
  tokenizer := .default

def toYaml (config : Config) : String :=
  Yaml.print [
    ("fixtures_dir", .text config.fixturesDir.text),
    ("results_dir", .text config.resultsDir.text),
    ("exports_dir", .text config.exportsDir.text),
    ("fixture_extensions", .list config.fixtureExtensions),
    ("format", .text config.format.name),
    ("themes", .list config.themes),
    ("tokenizer", .entries [
      ("program", (config.tokenizer.program.map .text).getD (.word "null")),
      ("args", .list config.tokenizer.args)])]

end Config

end Colorization
