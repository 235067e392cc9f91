/-! What the system refuses a request with. -/
namespace Colorization

inductive SystemError where
  | noEntry | inputOutput | execFormat | permissionDenied | busy | alreadyExists
  | notDirectory | isDirectory | invalidArgument | noSpace | nameTooLong | tooManyLinks
  /-- A file was to be read as text and is none. -/
  | notText
  /-- A path holds the character that ends paths. -/
  | nulInPath
  | nulInArgument
deriving DecidableEq

namespace SystemError

/-- The system's number for the error; the last three are found without asking it. -/
def code? : SystemError → Option Nat
  | .noEntry => some 2
  | .inputOutput => some 5
  | .execFormat => some 8
  | .permissionDenied => some 13
  | .busy => some 16
  | .alreadyExists => some 17
  | .notDirectory => some 20
  | .isDirectory => some 21
  | .invalidArgument => some 22
  | .noSpace => some 28
  | .nameTooLong => some 36
  | .tooManyLinks => some 40
  | _ => none

def text : SystemError → String
  | .noEntry => "No such file or directory"
  | .inputOutput => "Input/output error"
  | .execFormat => "Exec format error"
  | .permissionDenied => "Permission denied"
  | .busy => "Device or resource busy"
  | .alreadyExists => "File exists"
  | .notDirectory => "Not a directory"
  | .isDirectory => "Is a directory"
  | .invalidArgument => "Invalid argument"
  | .noSpace => "No space left on device"
  | .nameTooLong => "File name too long"
  | .tooManyLinks => "Too many levels of symbolic links"
  | .notText => "stream did not contain valid UTF-8"
  | .nulInPath => "file name contained an unexpected NUL byte"
  | .nulInArgument => "nul byte found in provided data"

def message (error : SystemError) : String :=
  match error.code? with
  | some code => s!"{error.text} (os error {code})"
  | none => error.text

end SystemError

end Colorization
