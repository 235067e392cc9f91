import Colorization.Colorizer
import Colorization.Fixtures
import Colorization.Routine.Program

/-! Capturing several files. One that fails is reported and does not keep the others from
being captured. -/
namespace Colorization

/-- Two sources of one output. -/
structure Clash where
  first : Path
  second : Path
  output : Path

namespace Clash

/-- The clashes of sources, given the outputs that are claimed and by whom. -/
def among (directory : Path) : List (Path × Path) → List Path → List Clash
  | _, [] => []
  | claimed, path :: rest =>
    let output := directory.baseline path
    match claimed.find? fun claim => claim.1.same output with
    | some claim => ⟨claim.2, path, output⟩ :: among directory claimed rest
    | none => among directory (claimed ++ [(output, path)]) rest

/-- Each source after the first that would write the same output. -/
def all (directory : Path) (paths : List Path) : List Clash := among directory [] paths

end Clash

/-- The outputs that more than one source would write, in the order of their second
sources. -/
def sharedOutputs (directory : Path) (paths : List Path) : List Path :=
  (Clash.all directory paths).foldl (fun outputs clash =>
    if outputs.any clash.output.same then outputs else outputs ++ [clash.output]) []

/-- Captures by path, in the order of the components; a path is there once. -/
abbrev Captures := List (Path × Capture)

/-- A later capture takes the place of an earlier one under the spelling that was first. -/
def Captures.insert (path : Path) (capture : Capture) : Captures → Captures
  | [] => [(path, capture)]
  | entry :: rest =>
    if path.same entry.1 then (entry.1, capture) :: rest
    else if path.components < entry.1.components then (path, capture) :: entry :: rest
    else entry :: Captures.insert path capture rest

structure BatchReport where
  captured : Captures
  /-- In the order of the sources. -/
  failures : List (Path × Failure)

namespace BatchReport

def empty : BatchReport := ⟨[], []⟩

def add (report : BatchReport) : Path × Except Failure Capture → BatchReport
  | (path, .ok capture) => { report with captured := report.captured.insert path capture }
  | (path, .error failure) => { report with failures := report.failures ++ [(path, failure)] }

def ofResults (results : List (Path × Except Failure Capture)) : BatchReport :=
  results.foldl add empty

def fileCount (report : BatchReport) : Nat := report.captured.length

def tokenCount (report : BatchReport) : Nat :=
  report.captured.foldl (fun count entry => count + entry.2.length) 0

def isComplete (report : BatchReport) : Bool := report.failures.isEmpty

end BatchReport

def resultEvent : Path × Except Failure Capture → Event
  | (path, .ok capture) => .colorized path capture.length
  | (path, .error failure) => .notColorized path failure

/-- A program that may fail. -/
abbrev Undertaking := ExceptT Failure Program

/-- An action as a part of an undertaking. -/
def Action.undertake (action : Action α) : Undertaking α := ExceptT.mk (.act action.run .done)

/-- Tells several events. -/
def tellAll : List Event → Routine Unit
  | [] => return ()
  | event :: rest => do
    Routine.tell event
    tellAll rest

namespace Colorizer

/-- The work for one source of a batch. -/
def captureInto (colorizer : Colorizer) (outDir : Option Path) (path : Path) : Action Capture :=
  match outDir with
  | some directory => colorizer.captureToFile path (directory.baseline path)
  | none => colorizer.capture path

/-- The directory for the outputs, and a warning for each output with several sources. -/
def prepare (paths : List Path) : Option Path → Action Unit
  | some directory => do
    Action.on directory (Routine.makeDirectories directory)
    tellAll ((Clash.all directory paths).map fun clash =>
      .sharedOutput clash.first clash.second clash.output)
  | none => return ()

/-- Captures every source, into a directory if one is given. Only that directory can make
all of it fail. -/
def captureMany (colorizer : Colorizer) (paths : List Path) (outDir : Option Path) :
    Undertaking BatchReport := do
  (prepare paths outDir).undertake
  let results ← (Program.forEach paths (colorizer.captureInto outDir) : Program _)
  (tellAll (results.map resultEvent) : Program Unit)
  return .ofResults results

def captureFixtures (colorizer : Colorizer) (fixturesDir resultsDir : Path)
    (extensions : List String) : Undertaking BatchReport := do
  let fixtures ← (discoverFixtures fixturesDir extensions).undertake
  (Routine.tell (.colorizing fixtures.length fixturesDir) : Program Unit)
  colorizer.captureMany fixtures (some resultsDir)

end Colorizer

end Colorization
