import Colorization.CommandLine.Execution
import Colorization.Shell.Run

/-! The command line on the real file system. Every request of a program is put to the
system; workers go on one after the other. -/
namespace Colorization.Real

/-- The refusal that has a number. -/
def refusalOf (code : Nat) : SystemError :=
  let refusals := [SystemError.noEntry, .execFormat, .permissionDenied, .busy, .alreadyExists,
    .notDirectory, .isDirectory, .invalidArgument, .noSpace, .nameTooLong, .tooManyLinks]
  (refusals.find? fun error => error.code? = some code).getD .inputOutput

/-- The number of an error, which some requests tell as a negative one. -/
def absolute (code : UInt32) : Nat :=
  if code.toNat < Nat.pow 2 31 then code.toNat else Nat.pow 2 32 - code.toNat

def codeOf : IO.Error → Nat
  | .alreadyExists _ code _ | .otherError code _ | .resourceBusy code _
  | .resourceVanished code _ | .unsupportedOperation code _ | .hardwareFault code _
  | .unsatisfiedConstraints code _ | .illegalOperation code _ | .protocolError code _
  | .timeExpired code _ | .interrupted _ code _ | .noFileOrDirectory _ code _
  | .invalidArgument _ code _ | .permissionDenied _ code _ | .resourceExhausted _ code _
  | .inappropriateType _ code _ | .noSuchThing _ code _ => absolute code
  | _ => 5

def attempt (action : IO α) : IO (Except SystemError α) := do
  match ← action.toBaseIO with
  | .ok value => return .ok value
  | .error error => return .error (refusalOf (codeOf error))

def stat (path : Path) : IO (Except SystemError Stat) :=
  attempt do
    let metadata ← (System.mkFilePath [path.text]).metadata
    let kind : FileSystem.Kind := match metadata.type with
      | .dir => .directory
      | .file => .file
      | _ => .other
    return ⟨kind, FileSystem.fileMode, metadata.byteSize.toNat⟩

def read (path : Path) : IO (Except SystemError ByteArray) :=
  attempt (IO.FS.readBinFile path.text)

def access : Shell.Access IO := ⟨stat, read⟩

/-- Makes an empty file with a name that no other has. -/
def createTemporary (directory : Path) : IO Path := do
  let path := directory.join ⟨FileSystem.temporaryName (← IO.monoNanosNow)⟩
  let _ ← IO.FS.Handle.mk path.text .writeNew
  return path

def rightsOf (mode : Nat) : IO.AccessRight :=
  ⟨mode &&& 4 ≠ 0, mode &&& 2 ≠ 0, mode &&& 1 ≠ 0⟩

def fileRightsOf (mode : Nat) : IO.FileRight :=
  ⟨rightsOf (mode / 64), rightsOf (mode / 8), rightsOf mode⟩

def perform (verbose : Bool) : (request : Request) → IO request.Answer
  | .stat path => stat path
  | .openFile path => attempt do
    let _ ← IO.FS.Handle.mk path.text .read
  | .read path => read path
  | .list path => attempt do
    return (← (System.mkFilePath [path.text]).readDir).toList.map (·.fileName)
  | .makeDirectories path => attempt (IO.FS.createDirAll path.text)
  | .createTemporary directory => attempt (createTemporary directory)
  | .setMode path mode => attempt (IO.setAccessRights path.text (fileRightsOf mode))
  | .overwrite path bytes => attempt (IO.FS.writeBinFile path.text bytes)
  | .rename source target => attempt (IO.FS.rename source.text target.text)
  | .remove path => do
    let _ ← attempt (IO.FS.removeFile path.text)
  | .tokenize _ => return .tokens []
  | .execute program args => Shell.execute access program args
  | .tell event => do
    if verbose || event.level ≠ .debug then IO.eprintln s!"{event.level.name} {event.message}"
  | .print .output text => IO.print text
  | .print .errors text => IO.eprint text

/-- Runs a routine; `none` is a panic. -/
def runRoutine (verbose : Bool) : Routine α → IO (Option α)
  | .done value => return some value
  | .panic => return none
  | .step request next => do
    let answer ← perform verbose request
    runRoutine verbose (next answer)

def workOn (verbose : Bool) (work : Path → Action α) (path : Path) :
    IO (Path × Except Failure α) := do
  let result ← runRoutine verbose (work path).run
  return (path, result.getD (.error (.capture path .panicked)))

def runProgram (verbose : Bool) : Program α → IO (Option α)
  | .done value => return some value
  | .act routine next => do
    match ← runRoutine verbose routine with
    | some answer => runProgram verbose (next answer)
    | none => return none
  | .fanOut paths work next => do
    let results ← paths.mapM (workOn verbose work)
    runProgram verbose (next results)

def environment : IO Environment := do
  return ⟨(← IO.getEnv "XDG_CONFIG_HOME").map Path.mk, (← IO.getEnv "HOME").map Path.mk⟩

def isVerbose (args : List String) : Bool :=
  match CommandLine.read args with
  | .ok arguments => arguments.verbose
  | .error _ => false

end Colorization.Real

open Colorization in
def main (args : List String) : IO UInt32 := do
  let program := CommandLine.run (← Real.environment) args
  return ((← Real.runProgram (Real.isVerbose args) program).getD 101).toUInt32
