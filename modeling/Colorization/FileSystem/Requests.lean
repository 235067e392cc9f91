import Colorization.FileSystem.Walk

/-! What can be asked of a file system. A request that fails leaves everything as it was,
except that making a directory may have made some of those above it. -/
namespace Colorization

/-- What sort of thing a path leads to. -/
inductive FileSystem.Kind where
  | directory | file | other
deriving DecidableEq

structure Stat where
  kind : FileSystem.Kind
  mode : Nat
  size : Nat

namespace FileSystem

def stat (files : FileSystem) (path : Path) : Except SystemError Stat := do
  match (← files.find path).2 with
  | .directory mode => return ⟨.directory, mode, 0⟩
  | .file mode content => return ⟨.file, mode, content.size⟩
  | _ => return ⟨.other, 0, 0⟩

def isDirectory (files : FileSystem) (path : Path) : Bool :=
  match files.stat path with
  | .ok stat => stat.kind = .directory
  | .error _ => false

def read (files : FileSystem) (path : Path) : Except SystemError ByteArray := do
  match (← files.find path).2 with
  | .directory _ => throw .isDirectory
  | .file _ content => return content.bytes
  | _ => return ByteArray.empty

/-- The names in a directory, in no particular order. -/
def list (files : FileSystem) (path : Path) : Except SystemError (List String) := do
  match ← files.find path with
  | (location, .directory _) => return files.names location
  | _ => throw .notDirectory

def makeDirectory (files : FileSystem) (path : Path) : Except SystemError FileSystem := do
  match ← files.entry? path with
  | none => throw .alreadyExists
  | some entry =>
    match files.node? entry.location with
    | some _ => throw .alreadyExists
    | none => return files.set entry.location (.directory directoryMode)

/-- A directory may be there already. -/
def requireDirectory (files : FileSystem) (path : Path) :
    Except SystemError Unit × FileSystem :=
  match files.makeDirectory path with
  | .ok made => (.ok (), made)
  | .error error => (if files.isDirectory path then .ok () else .error error, files)

/-- Makes the first of some directories, each of which is in the next; those that are
missing are made from the last on. The empty path is always there. -/
def makeEach (files : FileSystem) : List Path → Except SystemError Unit × FileSystem
  | [] => (.ok (), files)
  | path :: above =>
    if path.text.isEmpty then (.ok (), files)
    else
      match files.makeDirectory path with
      | .error .noEntry =>
        match files.makeEach above with
        | (.error error, files) => (.error error, files)
        | (.ok (), files) => files.requireDirectory path
      | _ => files.requireDirectory path

/-- A path and all that it is in, as far as `depth` goes. -/
def upward : Nat → Path → List Path
  | 0, path => [path]
  | depth + 1, path =>
    match path.parent? with
    | none => [path]
    | some parent => path :: upward depth parent

/-- Makes a directory and those above it, where they are missing. -/
def makeDirectories (files : FileSystem) (path : Path) :
    Except SystemError Unit × FileSystem :=
  files.makeEach (upward path.components.length path)

def temporaryName (n : Nat) : String := s!".colorsnap-{n}"

/-- The least number whose name is free in a directory. -/
def freeNumber (files : FileSystem) (location : Location) : Nat :=
  ((List.range (files.nodes.length + 1)).find? fun n =>
    (files.node? (location ++ [temporaryName n])).isNone).getD 0

/-- Makes an empty file of a new name in a directory, and tells its path. -/
def createTemporary (files : FileSystem) (directory : Path) :
    Except SystemError (Path × FileSystem) := do
  match ← files.find directory with
  | (location, .directory _) =>
    let path := directory.join ⟨temporaryName (files.freeNumber location)⟩
    match ← files.entry? path with
    | none => throw .alreadyExists
    | some entry => return (path, files.set entry.location (.file fileMode (.ofBytes .empty)))
  | _ => throw .notDirectory

def setMode (files : FileSystem) (path : Path) (mode : Nat) : Except SystemError FileSystem := do
  match ← files.find path with
  | (location, .file _ content) => return files.set location (.file mode content)
  | (location, .directory _) => return files.set location (.directory mode)
  | _ => return files

/-- Gives a file that is there other bytes. -/
def overwrite (files : FileSystem) (path : Path) (content : Content) :
    Except SystemError FileSystem := do
  match ← files.find path with
  | (location, .file mode _) => return files.set location (.file mode content)
  | (_, .directory _) => throw .isDirectory
  | _ => return files

/-- Gives a file another name, in the place of any other file or link of that name. -/
def rename (files : FileSystem) (source target : Path) : Except SystemError FileSystem := do
  let old ← files.entry? source
  let new ← (files.entry? target).mapError fun error =>
    if error = .nulInPath then .invalidArgument else error
  match old, new with
  | some old, some new =>
    match files.node? old.location, files.node? new.location with
    | none, _ => throw .noEntry
    | some node, there =>
      if new.slash then throw .notDirectory
      else
        match there with
        | some (.directory _) => throw .isDirectory
        | _ => return (files.erase old.location).set new.location node
  | _, _ => throw .busy

def remove (files : FileSystem) (path : Path) : Except SystemError FileSystem := do
  match ← files.entry? path with
  | none => throw .busy
  | some entry =>
    match files.node? entry.location with
    | none => throw .noEntry
    | some (.directory _) => throw .isDirectory
    | some _ => return files.erase entry.location

end FileSystem

end Colorization
