import Colorization.FileSystem.Requests

/-! Bringing a file system into a wanted state, and telling the state it is in. -/
namespace Colorization

/-- The directory that a path is in. -/
def Path.directory (path : Path) : Path :=
  match path.parent? with
  | some parent => if parent.text.isEmpty then ⟨"."⟩ else parent
  | none => ⟨"."⟩

namespace FileSystem

/-- An empty working directory and the device that holds nothing. -/
def fresh : FileSystem where
  nodes := [
    (["work"], .directory directoryMode), (["dev"], .directory directoryMode),
    (["dev", "null"], .device)]
  working := ["work"]

/-- Puts a file at a path, or other bytes into the file that is there. -/
def put (files : FileSystem) (path : Path) (content : Content) :
    Except SystemError FileSystem := do
  match ← files.place true path with
  | .node _ _ => files.overwrite path content
  | .free location slash =>
    if slash then throw .isDirectory
    else return files.set location (.file fileMode content)

/-- Puts a file at a path, with the directories above it. -/
def putWithParents (files : FileSystem) (path : Path) (content : Content) :
    Except SystemError FileSystem :=
  (files.makeDirectories path.directory).2.put path content

def link (files : FileSystem) (path target : Path) : Except SystemError FileSystem := do
  match ← files.entry? path with
  | none => throw .alreadyExists
  | some entry =>
    match files.node? entry.location with
    | some _ => throw .alreadyExists
    | none => return files.set entry.location (.link target)

/-- Removes what is at a path and all below it. -/
def removeTree (files : FileSystem) (path : Path) : Except SystemError FileSystem := do
  match ← files.entry? path with
  | none => throw .busy
  | some entry =>
    return { files with nodes := files.nodes.filter fun node => !entry.location.isPrefixOf node.1 }

/-- The path of a location as seen from the working directory above it; directories end
in a slash and links in `@`. -/
def shown (files : FileSystem) (location : Location) (node : Node) : Option String :=
  if files.working.isPrefixOf location && location ≠ files.working then
    let text := "/".intercalate (location.drop files.working.length)
    match node with
    | .directory _ => some (text ++ "/")
    | .link _ => some (text ++ "@")
    | _ => some text
  else none

/-- Everything below the working directory, in the order of the bytes. -/
def tree (files : FileSystem) : List String :=
  (files.nodes.filterMap fun entry => files.shown entry.1 entry.2).mergeSort

end FileSystem

end Colorization
