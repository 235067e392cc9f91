import Colorization.Config.Basic
import Colorization.Routine.Basic

/-! Where the tokens of a file come from: a tokenizer in this process, or a program that
prints them as a JSON array. -/
namespace Colorization

inductive Tokenizer where
  | inProcess
  | command (program : String) (args : List String)
deriving DecidableEq

namespace TokenizerCommand

def tokenizer? (command : TokenizerCommand) : Option Tokenizer :=
  command.program.map fun program => .command program command.args

end TokenizerCommand

/-- The tokens that a program has printed. -/
def Finished.capture (finished : Finished) : Except CaptureFault Capture := do
  unless finished.status.succeeded do
    throw (.exited finished.status finished.errors)
  let text ← (Text.ofBytes finished.output).mapError .notText
  (Capture.deserialize text).mapError .malformed

namespace Tokenizer

def program? : Tokenizer → Option String
  | .inProcess => none
  | .command program _ => some program

/-- A program gets the path as its last argument. -/
def tokens (tokenizer : Tokenizer) (path : Path) : Action Capture :=
  match tokenizer with
  | .inProcess => do
    match ← Routine.tokenize path with
    | .tokens capture => return capture
    | .failed failure => throw failure
    | .panicked => ExceptT.mk .panic
  | .command program args => do
    Routine.tell (.running program path)
    match ← Routine.execute program (args ++ [path.text]) with
    | .error error => throw (.capture path (.unavailable program error))
    | .ok finished => ExceptT.mk (pure (finished.capture.mapError (.capture path)))

end Tokenizer

end Colorization
