import Colorization.FileSystem.Basic
import Colorization.SystemError

/-! From paths to locations. A walk goes through the segments of a path, each of them in a
directory, and puts the target of a link in the place of the link. Forty links may be met
on one walk. -/
namespace Colorization.FileSystem

/-- Where a walk ends. -/
inductive Place where
  | node (location : Location) (node : Node)
  /-- Nothing is there, in a directory that is; the path went on with a slash or not. -/
  | free (location : Location) (slash : Bool)

abbrev Segment := List Char

def maxLinks : Nat := 40

/-- The number of bytes that a name may have. -/
def maxName : Nat := 255

/-- The number of bytes that a path may not reach. -/
def pathLimit : Nat := 4096

def isTooLong (name : String) : Bool := maxName < name.utf8ByteSize

/-- Walks up to the next link, and goes on there with `onLink`. A link that ends the path
is itself the place unless the last link is followed. -/
def advance (files : FileSystem) (followLast : Bool)
    (onLink : Location → List Segment → Except SystemError Place) :
    Location → List Segment → Except SystemError Place
  | location, [] =>
    match files.node? location with
    | some node => .ok (.node location node)
    | none => .error .noEntry
  | location, segment :: rest =>
    match files.node? location with
    | some (.directory _) =>
      if segment = [] ∨ segment = ['.'] then advance files followLast onLink location rest
      else if segment = ['.', '.'] then
        advance files followLast onLink location.dropLast rest
      else
        let name := String.ofList segment
        if isTooLong name then .error .nameTooLong
        else
          match files.node? (location ++ [name]) with
          | none =>
            if rest.all (·.isEmpty) then .ok (.free (location ++ [name]) (!rest.isEmpty))
            else .error .noEntry
          | some (.link target) =>
            if rest.isEmpty && !followLast then .ok (.node (location ++ [name]) (.link target))
            else
              onLink (if target.isAbsolute then [] else location)
                (Path.segments target.text.toList ++ rest)
          | some _ => advance files followLast onLink (location ++ [name]) rest
    | _ => .error .notDirectory

def walk (files : FileSystem) (followLast : Bool) :
    Nat → Location → List Segment → Except SystemError Place
  | 0 => advance files followLast fun _ _ => .error .tooManyLinks
  | links + 1 => advance files followLast (walk files followLast links)

/-- Where the walk along a path begins. -/
def start (files : FileSystem) (path : Path) : Location :=
  if path.isAbsolute then [] else files.working

/-- What is wrong with a path before any walk. -/
def check (path : Path) : Except SystemError Unit :=
  if path.text.toList.contains '\x00' then .error .nulInPath
  else if path.text.isEmpty then .error .noEntry
  else if pathLimit ≤ path.text.utf8ByteSize then .error .nameTooLong
  else .ok ()

def place (files : FileSystem) (followLast : Bool) (path : Path) : Except SystemError Place := do
  check path
  files.walk followLast maxLinks (files.start path) (Path.segments path.text.toList)

/-- What a path leads to, through all links. -/
def find (files : FileSystem) (path : Path) : Except SystemError (Location × Node) := do
  match ← files.place true path with
  | .node location node => return (location, node)
  | .free _ _ => throw .noEntry

/-- A name in a directory, as the end of a path gives it. -/
structure Entry where
  location : Location
  slash : Bool

/-- The entry that a path ends with, whatever is there; `none` where the path ends with no
name of its own. -/
def entry? (files : FileSystem) (path : Path) : Except SystemError (Option Entry) := do
  check path
  let segments := (Path.segments path.text.toList).reverse
  match segments.dropWhile (·.isEmpty) with
  | [] => return none
  | last :: before =>
    match ← files.walk true maxLinks (files.start path) before.reverse with
    | .free _ _ => throw .noEntry
    | .node location (.directory _) =>
      let name := String.ofList last
      if last = ['.'] ∨ last = ['.', '.'] then return none
      else if isTooLong name then throw .nameTooLong
      else return some ⟨location ++ [name], segments.head? = some []⟩
    | .node _ _ => throw .notDirectory

end Colorization.FileSystem
