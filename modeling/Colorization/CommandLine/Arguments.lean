import Colorization.Path

/-! What a command line says. Options of every command may stand before or after its
name. -/
namespace Colorization.CommandLine

/-- The name of a command. -/
inductive Verb where
  | colorize | batch | fixtures | compare | test | export | config
deriving DecidableEq

namespace Verb

def name : Verb → String
  | .colorize => "colorize"
  | .batch => "batch"
  | .fixtures => "fixtures"
  | .compare => "compare"
  | .test => "test"
  | .export => "export"
  | .config => "config"

def all : List Verb := [.colorize, .batch, .fixtures, .compare, .test, .export, .config]

def ofName? (name : String) : Option Verb := all.find? (·.name = name)

/-- How many words may follow the name; `none` is any number. -/
def maxWords? : Verb → Option Nat
  | .colorize => some 1
  | .batch => none
  | .compare => some 2
  | _ => some 0

def minWords : Verb → Nat
  | .colorize => 1
  | .batch => 1
  | .compare => 2
  | _ => 0

end Verb

/-- The options of all commands. -/
inductive Opt where
  | config | tokenizer | tokenizerArg | theme | compact | verbose
  | output | outDir | update | json | export
  | help | version
deriving DecidableEq

namespace Opt

def long : Opt → String
  | .config => "config"
  | .tokenizer => "tokenizer"
  | .tokenizerArg => "tokenizer-arg"
  | .theme => "theme"
  | .compact => "compact"
  | .verbose => "verbose"
  | .output => "output"
  | .outDir => "out-dir"
  | .update => "update"
  | .json => "json"
  | .export => "export"
  | .help => "help"
  | .version => "version"

def short? : Opt → Option Char
  | .verbose => some 'v'
  | .output => some 'o'
  | .help => some 'h'
  | .version => some 'V'
  | _ => none

def takesValue : Opt → Bool
  | .config | .tokenizer | .tokenizerArg | .theme | .output | .outDir => true
  | _ => false

/-- A path must not be empty. -/
def isPath : Opt → Bool
  | .config | .output | .outDir => true
  | _ => false

def repeatable : Opt → Bool
  | .tokenizerArg | .theme => true
  | _ => false

/-- The value may begin with a hyphen. -/
def takesHyphens : Opt → Bool
  | .tokenizerArg => true
  | _ => false

def everywhere : List Opt := [.config, .tokenizer, .tokenizerArg, .theme, .compact, .verbose, .help]

def ofVerb : Verb → List Opt
  | .colorize => [.output]
  | .batch | .fixtures | .export => [.outDir]
  | .compare => [.update, .json]
  | .test => [.export]
  | .config => []

/-- The options that may be given before or behind the name of a command. -/
def allowed : Option Verb → List Opt
  | none => .version :: everywhere
  | some verb => ofVerb verb ++ everywhere

end Opt

/-- Why a command line is refused, or what it asks to be shown instead. -/
inductive UsageError where
  | showHelp | showVersion | noArguments
  | noCommand | unknownCommand | unknownArgument | missingArgument
  | invalidValue | repeated | unneededValue
deriving DecidableEq

/-- Being shown something that was asked for is no failure. -/
def UsageError.exitCode : UsageError → Nat
  | .showHelp | .showVersion => 0
  | _ => 2

inductive Command where
  | colorize (file : Path) (output : Option Path)
  | batch (files : List Path) (outDir : Path)
  | fixtures (outDir : Option Path)
  | compare (baseline source : Path) (update json : Bool)
  | test (exporting : Bool)
  | export (outDir : Option Path)
  | config

structure Arguments where
  config : Option Path
  tokenizer : Option String
  tokenizerArgs : List String
  themes : List String
  compact : Bool
  verbose : Bool
  command : Command

end Colorization.CommandLine
