import Colorization.Path

/-! A file system as a value: what there is at each location. A location is the list of
names that lead to it from the root; the root is always a directory. -/
namespace Colorization

abbrev Location := List String

/-- What a file holds: some bytes, and a number of zero bytes after them. -/
structure Content where
  data : ByteArray
  zeros : Nat

namespace Content

def size (content : Content) : Nat := content.data.size + content.zeros

def bytes (content : Content) : ByteArray :=
  if content.zeros = 0 then content.data
  else content.data ++ ⟨Array.replicate content.zeros 0⟩

def ofBytes (data : ByteArray) : Content := ⟨data, 0⟩

def ofText (text : String) : Content := ofBytes text.toUTF8

@[simp] theorem bytes_ofBytes (data : ByteArray) : (ofBytes data).bytes = data := by
  simp [ofBytes, bytes]

end Content

inductive FileSystem.Node where
  | directory (mode : Nat)
  | file (mode : Nat) (content : Content)
  | link (target : Path)
  | device

/-- The working directory is where paths begin that do not begin at the root. -/
structure FileSystem where
  nodes : List (Location × FileSystem.Node)
  working : Location

namespace FileSystem

/-- The mode of directories that are made. -/
def directoryMode : Nat := 0o755

/-- The mode of files that are made. -/
def fileMode : Nat := 0o644

def node? (files : FileSystem) (location : Location) : Option Node :=
  if location = [] then some (.directory directoryMode)
  else (files.nodes.find? fun entry => entry.1 = location).map (·.2)

def set (files : FileSystem) (location : Location) (node : Node) : FileSystem :=
  { files with nodes := (location, node) :: files.nodes.filter fun entry => entry.1 ≠ location }

def erase (files : FileSystem) (location : Location) : FileSystem :=
  { files with nodes := files.nodes.filter fun entry => entry.1 ≠ location }

/-- The names of what is directly in a directory. -/
def names (files : FileSystem) (location : Location) : List String :=
  files.nodes.filterMap fun entry =>
    if entry.1.dropLast = location then entry.1.getLast? else none

theorem find?_filter_ne (nodes : List (Location × Node)) {location other : Location}
    (h : other ≠ location) :
    ((nodes.filter fun entry => entry.1 ≠ location).find? fun entry => entry.1 = other) =
      nodes.find? fun entry => entry.1 = other := by
  induction nodes with
  | nil => rfl
  | cons entry rest ih =>
    by_cases same : entry.1 = location
    · have differs : entry.1 ≠ other := fun e => h (e.symm.trans same)
      simp_all
    · by_cases found : entry.1 = other <;> simp_all

theorem node?_set_self {files : FileSystem} {location : Location} (h : location ≠ [])
    (node : Node) : (files.set location node).node? location = some node := by
  simp [node?, set, h]

theorem node?_set_of_ne {files : FileSystem} {location other : Location} (h : other ≠ location)
    (node : Node) : (files.set location node).node? other = files.node? other := by
  have skip : ¬ location = other := fun e => h e.symm
  simp only [node?, set, List.find?_cons, skip, decide_false]
  rw [find?_filter_ne _ h]

theorem node?_erase_self {files : FileSystem} {location : Location} (h : location ≠ []) :
    (files.erase location).node? location = none := by
  simp [node?, erase, h]

theorem node?_erase_of_ne {files : FileSystem} {location other : Location}
    (h : other ≠ location) : (files.erase location).node? other = files.node? other := by
  simp only [node?, erase]
  rw [find?_filter_ne _ h]

end FileSystem

end Colorization
