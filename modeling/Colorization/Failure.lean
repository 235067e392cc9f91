import Colorization.Decimal.Binary64
import Colorization.Path
import Colorization.SystemError
import Colorization.Text.Blank
import Colorization.Text.Utf8
import Colorization.Token.Document

/-! Why work on a file fails: its tokens cannot be captured, a document holds no tokens,
or the system refuses to read or write. -/
namespace Colorization

/-- How a program ended. -/
inductive ExitStatus where
  | code (code : Nat)
  | signal (number : Nat)
deriving DecidableEq

def signalNames : List String :=
  ["HUP", "INT", "QUIT", "ILL", "TRAP", "ABRT", "BUS", "FPE", "KILL", "USR1", "SEGV", "USR2",
    "PIPE", "ALRM", "TERM", "STKFLT", "CHLD", "CONT", "STOP", "TSTP", "TTIN", "TTOU", "URG",
    "XCPU", "XFSZ", "VTALRM", "PROF", "WINCH", "IO", "PWR", "SYS"]

namespace ExitStatus

def succeeded (status : ExitStatus) : Bool := status = .code 0

def message : ExitStatus → String
  | .code n => s!"exit status: {n}"
  | .signal n =>
    match if n = 0 then none else signalNames[n - 1]? with
    | some name => s!"signal: {n} (SIG{name})"
    | none => s!"signal: {n}"

end ExitStatus

/-- The number of bytes that a source file may have. -/
def maxSourceSize : Nat := 50 * Nat.pow 2 20

/-- A size in megabytes with one decimal, a half going to the even digit. -/
def megabytes (size : Nat) : String :=
  let (num, den) := ((Decimal.Binary64.round? size 1).getD .zero).fraction
  let tenths := Decimal.divEven (num * 10) (den * Nat.pow 2 20)
  s!"{tenths / 10}.{tenths % 10}"

/-- Why there are no tokens of a file. -/
inductive CaptureFault where
  | notFound
  | permissionDenied
  | isDirectory
  | tooLarge (size : Nat)
  | system (error : SystemError)
  | unavailable (program : String) (error : SystemError)
  | exited (status : ExitStatus) (errors : ByteArray)
  | notText (fault : Text.Utf8Fault)
  | malformed (fault : DocumentFault)
  /-- The tokenizer gave its own reason. -/
  | told (reason : String)
  | panicked

def formatMessage (origin : String) (fault : DocumentFault) : String :=
  s!"invalid token data in {origin}: {fault.message}"

def CaptureFault.message (path : Path) : CaptureFault → String
  | .notFound => "file not found"
  | .permissionDenied => "permission denied"
  | .isDirectory => "is a directory"
  | .tooLarge size =>
    s!"file too large ({megabytes size} MB, max {maxSourceSize / Nat.pow 2 20} MB)"
  | .system error => error.message
  | .unavailable program error => s!"tokenizer `{program}` unavailable: {error.message}"
  | .exited status errors =>
    s!"tokenizer exited with {status.message}: " ++
      String.ofList (Text.trimmed (Text.lossy errors))
  | .notText fault => s!"tokenizer output is not UTF-8: {fault.message}"
  | .malformed fault => formatMessage s!"tokenizer output for {path.text}" fault
  | .told reason => reason
  | .panicked => "capture worker panicked"

inductive Failure where
  | capture (path : Path) (fault : CaptureFault)
  | format (origin : String) (fault : DocumentFault)
  | system (path : Path) (error : SystemError)
  | missingFixtures (path : Path)

namespace Failure

def message : Failure → String
  | .capture path fault =>
    s!"failed to capture tokens for {path.text}: {fault.message path}"
  | .format origin fault => formatMessage origin fault
  | .system path error => s!"I/O error on {path.text}: {error.message}"
  | .missingFixtures path => s!"fixtures directory not found: {path.text}"

/-- The message and what lies behind it. -/
def chain : Failure → String
  | .system path error => (Failure.system path error).message ++ ": " ++ error.message
  | other => other.message

end Failure

end Colorization
