import Colorization.FileSystem.Setting
import Colorization.Routine.Basic

/-! Captures in files. A file is written under another name in its directory and then takes
its own name in one step, so a reader finds the former bytes or all of the new ones. -/
namespace Colorization

open Routine (stat readText makeDirectories createTemporary setMode overwrite rename remove tell)

namespace Capture

def load (path : Path) : Action Capture := do
  let text ← Action.on path (readText path)
  match Capture.deserialize text with
  | .ok capture => return capture
  | .error fault => throw (.format path.text fault)

/-- Fills the file `temporary` and lets it take the place of `path`, and the mode of the
regular file there. -/
def replace (temporary path : Path) (text : String) : Action Unit := do
  match ← stat path with
  | .ok ⟨.file, mode, _⟩ => Action.on temporary (setMode temporary mode)
  | _ => pure ()
  Action.on temporary (overwrite temporary text.toUTF8)
  Action.on path (rename temporary path)

/-- Removes the file that a failed replacement would leave behind. -/
def replaceOrRemove (temporary path : Path) (text : String) : Action Unit :=
  tryCatch (replace temporary path text) fun failure => do
    remove temporary
    throw failure

/-- Writes a file, with the directories above it. -/
def save (capture : Capture) (path : Path) (format : Format) : Action Unit := do
  let directory := path.directory
  Action.on directory (makeDirectories directory)
  let temporary ← Action.on directory (createTemporary directory)
  replaceOrRemove temporary path (capture.serialize format)
  tell (.wrote capture.length path)

end Capture

end Colorization
