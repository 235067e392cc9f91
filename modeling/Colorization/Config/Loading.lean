import Colorization.Routine.Basic
import Colorization.UserDirectory

/-! Where settings come from: the file that is asked for, else the project's file, else the
user's file, else the defaults. -/
namespace Colorization

namespace Config

def ofFile (path : Path) : Routine (Except LoadFault Config) := do
  match ← Routine.readText path with
  | .error error => return .error (.unreadable path error)
  | .ok text =>
    match Config.ofYaml text with
    | .error fault => return .error (.invalid path fault)
    | .ok config =>
      Routine.tell (.loadedConfig path)
      return .ok config

/-- The settings of the first file that is there. If they cannot be had from it, they are
the defaults. -/
def ofCandidates : List Path → Routine Config
  | [] => do
    Routine.tell .noConfig
    return .default
  | path :: rest => do
    match ← Routine.stat path with
    | .error _ =>
      Routine.tell (.noConfigAt path)
      ofCandidates rest
    | .ok _ =>
      match ← ofFile path with
      | .ok config => return config
      | .error fault =>
        Routine.tell (.ignoredConfig fault)
        return .default

/-- Only a file that is asked for must be there and hold settings. -/
def load (environment : Environment) (asked : Option Path) :
    Routine (Except LoadFault Config) := do
  match asked with
  | some path => ofFile path
  | none => return .ok (← ofCandidates (projectConfig :: environment.configFile?.toList))

end Config

/-- Why there is no directory for logs. -/
inductive LogsFault where
  | nowhere
  | notMade (path : Path) (error : SystemError)

def LogsFault.message : LogsFault → String
  | .nowhere => "No config directory available"
  | .notMade path error => s!"Failed to create directory {path.text}: {error.message}"

/-- Makes the directory for logs. -/
def ensureLogsDir (environment : Environment) : Routine (Except LogsFault Path) := do
  match environment.logsDir? with
  | none => return .error .nowhere
  | some path =>
    match ← Routine.makeDirectories path with
    | .error error => return .error (.notMade path error)
    | .ok () => return .ok path

end Colorization
