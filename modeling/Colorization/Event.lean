import Colorization.Comparison
import Colorization.Config.Reading
import Colorization.Failure

/-! What is told about the course of the work. -/
namespace Colorization

inductive Level where
  | debug | info | warn
deriving DecidableEq

def Level.name : Level → String
  | .debug => "DEBUG"
  | .info => "INFO"
  | .warn => "WARN"

/-- Why settings could not be taken from a file. -/
inductive Config.LoadFault where
  | unreadable (path : Path) (error : SystemError)
  | invalid (path : Path) (fault : YamlFault)

def Config.LoadFault.message : Config.LoadFault → String
  | .unreadable path error => s!"Failed to read config {path.text}: {error.message}"
  | .invalid path fault => s!"Invalid config {path.text}: {fault.message}"

inductive Event where
  | wrote (count : Nat) (path : Path)
  | running (program : String) (path : Path)
  | colorized (path : Path) (count : Nat)
  | notColorized (path : Path) (failure : Failure)
  | sharedOutput (first second output : Path)
  | colorizing (count : Nat) (directory : Path)
  | created (baseline : Path)
  | exported (baseline : Path)
  | updated (baseline : Path)
  | matching (fixture : Path)
  | drifted (fixture : Path) (comparison : Comparison)
  | changed (fixture : Path) (comparison : Comparison)
  | fixtureFailed (fixture : Path) (failure : Failure)
  | usingTokenizer (program : String)
  | exporting (count : Nat)
  | loadedConfig (path : Path)
  | noConfigAt (path : Path)
  | noConfig
  | ignoredConfig (fault : Config.LoadFault)

namespace Event

def level : Event → Level
  | .wrote _ _ | .running _ _ | .matching _ | .usingTokenizer _ | .noConfigAt _ | .noConfig =>
    .debug
  | .notColorized _ _ | .sharedOutput _ _ _ | .changed _ _ | .fixtureFailed _ _
  | .ignoredConfig _ => .warn
  | _ => .info

def message : Event → String
  | .wrote count path => s!"Wrote {count} tokens to {path.text}"
  | .running program path => s!"Running tokenizer {program} for {path.text}"
  | .colorized path count => s!"Colorized {path.text} ({count} tokens)"
  | .notColorized path failure => s!"Failed to colorize {path.text}: {failure.message}"
  | .sharedOutput first second output =>
    s!"{first.text} and {second.text} both write {output.text}; only one capture will be kept"
  | .colorizing count directory => s!"Colorizing {count} fixtures from {directory.text}"
  | .created baseline => s!"Created baseline {baseline.text}"
  | .exported baseline => s!"Exported {baseline.text}"
  | .updated baseline => s!"Updated baseline {baseline.text}"
  | .matching fixture => s!"{fixture.text} matches baseline"
  | .drifted fixture comparison => s!"Cosmetic drift in {fixture.text}: {comparison.summary}"
  | .changed fixture comparison => s!"Colorization of {fixture.text} changed: {comparison.summary}"
  | .fixtureFailed fixture failure => s!"Fixture {fixture.text} failed: {failure.message}"
  | .usingTokenizer program => s!"Using tokenizer {program}"
  | .exporting count => s!"Exporting colorization for {count} fixtures..."
  | .loadedConfig path => s!"Loaded config from {path.text}"
  | .noConfigAt path => s!"Config file not found at {path.text}"
  | .noConfig => "No config file found, using defaults"
  | .ignoredConfig fault => s!"{fault.message}; using defaults"

end Event

end Colorization
