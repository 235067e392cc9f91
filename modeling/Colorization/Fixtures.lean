import Colorization.Routine.Basic

/-! The fixtures in a directory: its regular files, links followed, of the wanted
extensions. -/
namespace Colorization

namespace Path

/-- Whether the extension is listed, where dots at the beginning do not count; an empty
list has all. -/
def hasExtension (path : Path) (extensions : List String) : Bool :=
  extensions.isEmpty ||
    match path.extension? with
    | none => false
    | some extension =>
      extensions.any fun listed => listed.toList.dropWhile (· = '.') = extension.toList

def notAfter (left right : Path) : Bool := !decide (right.components < left.components)

end Path

def isRegularFile (path : Path) : Routine Bool := do
  match ← Routine.stat path with
  | .ok stat => return stat.kind = .file
  | .error _ => return false

/-- The regular files among some paths. -/
def regularFiles : List Path → Routine (List Path)
  | [] => return []
  | path :: rest => do
    let regular ← isRegularFile path
    let others ← regularFiles rest
    return if regular then path :: others else others

/-- The fixtures of a directory in the order of their names. -/
def discoverFixtures (directory : Path) (extensions : List String) : Action (List Path) := do
  match ← Routine.stat directory with
  | .ok ⟨.directory, _, _⟩ =>
    let names ← Action.on directory (Routine.list directory)
    let files ← regularFiles (names.map fun name => directory.join ⟨name⟩)
    return (files.filter fun path => path.hasExtension extensions).mergeSort Path.notAfter
  | _ => throw (.missingFixtures directory)

end Colorization
