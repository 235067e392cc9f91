import Colorization.Batch
import Colorization.Comparison
import Colorization.Task

/-! Checking fixtures against their baselines. A fixture without a baseline gets one. A
change of scopes alone goes into the baseline and passes; a change of text or colours goes
into the baseline and fails. -/
namespace Colorization

inductive Outcome where
  | created
  | passed
  | updatedPass (comparison : Comparison)
  | updatedFail (comparison : Comparison)
  | exported
deriving DecidableEq

namespace Outcome

def isSuccess : Outcome → Bool
  | .updatedFail _ => false
  | _ => true

def comparison? : Outcome → Option Comparison
  | .updatedPass comparison | .updatedFail comparison => some comparison
  | _ => none

def label : Outcome → String
  | .created => "created"
  | .passed => "unchanged"
  | .updatedPass _ => "updated (cosmetic)"
  | .updatedFail _ => "REGRESSED"
  | .exported => "exported"

end Outcome

/-- Whether anything is at a path; that nothing is there is an answer, other refusals are
failures. -/
def isThere (path : Path) : Action Bool := do
  match ← Routine.stat path with
  | .ok _ => return true
  | .error .noEntry => return false
  | .error error => throw (.system path error)

/-- Checks fixtures against the baselines in one directory. -/
structure SnapshotRunner where
  colorizer : Colorizer
  resultsDir : Path

namespace SnapshotRunner

def baselineOf (runner : SnapshotRunner) (fixture : Path) : Path :=
  runner.resultsDir.baseline fixture

def write (runner : SnapshotRunner) (current : Capture) (baseline : Path) (event : Event) :
    Action Unit := do
  current.save baseline runner.colorizer.format
  Routine.tell event

/-- What a capture means for the baseline that holds `former`. A change is told before the
baseline is written, so that it is known even if that fails. -/
def settle (runner : SnapshotRunner) (fixture : Path) (former current : Capture) :
    Action Outcome := do
  let baseline := runner.baselineOf fixture
  let comparison := former.compare current
  match former.classify current with
  | .identical =>
    Routine.tell (.matching fixture)
    return .passed
  | .cosmetic =>
    Routine.tell (.drifted fixture comparison)
    runner.write current baseline (.updated baseline)
    return .updatedPass comparison
  | .material =>
    Routine.tell (.changed fixture comparison)
    runner.write current baseline (.updated baseline)
    return .updatedFail comparison

def check (runner : SnapshotRunner) (fixture : Path) (current : Capture) : Action Outcome := do
  let baseline := runner.baselineOf fixture
  if ← isThere baseline then
    let former ← Capture.load baseline
    runner.settle fixture former current
  else
    runner.write current baseline (.created baseline)
    return .created

def run (runner : SnapshotRunner) (mode : Mode) (fixture : Path) : Action Outcome := do
  let current ← runner.colorizer.capture fixture
  match mode with
  | .export =>
    let baseline := runner.baselineOf fixture
    runner.write current baseline (.exported baseline)
    return .exported
  | .check => runner.check fixture current

end SnapshotRunner

/-- The results of a suite in the order of its fixtures. -/
structure SuiteReport where
  fixtures : List (Path × Except Failure Outcome)

def isGood : Except Failure Outcome → Bool
  | .ok outcome => outcome.isSuccess
  | .error _ => false

namespace SuiteReport

def passed (report : SuiteReport) : Nat := report.fixtures.countP fun entry => isGood entry.2

def failed (report : SuiteReport) : Nat := report.fixtures.length - report.passed

def isSuccess (report : SuiteReport) : Bool := report.fixtures.all fun entry => isGood entry.2

def failures (report : SuiteReport) : List (Path × Except Failure Outcome) :=
  report.fixtures.filter fun entry => !isGood entry.2

end SuiteReport

def failureEvent? : Path × Except Failure Outcome → Option Event
  | (fixture, .error failure) => some (.fixtureFailed fixture failure)
  | _ => none

/-- Runs every fixture; none keeps another from being run. -/
def SnapshotRunner.runSuite (runner : SnapshotRunner) (fixtures : List Path) (mode : Mode) :
    Program SuiteReport := do
  let results ← Program.forEach fixtures (runner.run mode)
  (tellAll (results.filterMap failureEvent?) : Program Unit)
  return ⟨results⟩

end Colorization
