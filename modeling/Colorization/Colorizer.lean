import Colorization.Token.File
import Colorization.Tokenizer

/-! Capturing the tokens of source files. A file is looked at before the tokenizer is
asked, so that it is only asked about what it could read. -/
namespace Colorization

structure Colorizer where
  tokenizer : Tokenizer
  /-- The layout of the files that are written. -/
  format : Format
  /-- The themes that are kept; an empty list keeps all. -/
  themes : List String

def CaptureFault.ofSystemError : SystemError → CaptureFault
  | .noEntry => .notFound
  | .permissionDenied => .permissionDenied
  | other => .system other

/-- A source file can be opened, is no directory and is not too large. -/
def validateSource (path : Path) : Action Unit := do
  match ← Routine.stat path with
  | .error error => throw (.capture path (.ofSystemError error))
  | .ok stat =>
    if stat.kind = .directory then throw (.capture path .isDirectory)
    else if maxSourceSize < stat.size then throw (.capture path (.tooLarge stat.size))
    else
      match ← Routine.openFile path with
      | .error error => throw (.capture path (.system error))
      | .ok () => return ()

namespace Colorizer

def capture (colorizer : Colorizer) (path : Path) : Action Capture := do
  validateSource path
  let tokens ← colorizer.tokenizer.tokens path
  return tokens.restrict colorizer.themes

def captureToFile (colorizer : Colorizer) (path output : Path) : Action Capture := do
  let tokens ← colorizer.capture path
  tokens.save output colorizer.format
  return tokens

end Colorizer

end Colorization
