/-! Paths as texts. A path is kept as it was given; its components leave out empty
segments and, except at the start, the segment `.`. Two spellings with the same
components name the same place in every directory without links. -/
namespace Colorization

structure Path where
  text : String
deriving DecidableEq

inductive Component where
  | root
  | here
  | parent
  | name (text : String)
deriving DecidableEq

namespace Component

/-- The root comes first, then `.`, `..` and the names in the order of their bytes. -/
def rank : Component → Nat × String
  | .root => (0, "")
  | .here => (1, "")
  | .parent => (2, "")
  | .name text => (3, text)

instance : LT Component :=
  ⟨fun a b => a.rank.1 < b.rank.1 ∨ a.rank.1 = b.rank.1 ∧ a.rank.2 < b.rank.2⟩

instance : DecidableLT Component := fun a b =>
  inferInstanceAs (Decidable (a.rank.1 < b.rank.1 ∨ a.rank.1 = b.rank.1 ∧ a.rank.2 < b.rank.2))

end Component

namespace Path

/-- The parts between slashes, among them the empty ones. -/
def segments : List Char → List (List Char)
  | [] => [[]]
  | c :: rest =>
    if c = '/' then [] :: segments rest
    else
      match segments rest with
      | [] => [[c]]
      | first :: others => (c :: first) :: others

/-- Components of segments that do not begin the path, each with the number of
characters up to its end. -/
def laterSpans (offset : Nat) : List (List Char) → List (Component × Nat)
  | [] => []
  | segment :: rest =>
    let stop := offset + segment.length
    let others := laterSpans (stop + 1) rest
    if segment = [] ∨ segment = ['.'] then others
    else if segment = ['.', '.'] then (.parent, stop) :: others
    else (.name (String.ofList segment), stop) :: others

def spans (path : Path) : List (Component × Nat) :=
  match segments path.text.toList with
  | [] => []
  | [] :: [] => []
  | [] :: rest => (.root, 1) :: laterSpans 1 rest
  | ['.'] :: rest => (.here, 1) :: laterSpans 2 rest
  | others => laterSpans 0 others

def components (path : Path) : List Component := path.spans.map (·.1)

def isAbsolute (path : Path) : Bool := path.text.toList.head? = some '/'

/-- The last component, where it is a name. -/
def fileName? (path : Path) : Option String :=
  match path.components.getLast? with
  | some (.name text) => some text
  | _ => none

/-- The text up to the end of the last component but one; the root and the empty path
have no parent. -/
def parent? (path : Path) : Option Path :=
  match path.spans.reverse with
  | [] => none
  | (.root, _) :: _ => none
  | _ :: [] => some ⟨""⟩
  | _ :: (_, stop) :: _ => some ⟨String.ofList (path.text.toList.take stop)⟩

/-- The part before the last dot and the part after it; a name whose only dot comes
first is not split. -/
def splitName (name : String) : String × Option String :=
  let cs := name.toList.reverse
  let after := cs.takeWhile (· ≠ '.')
  match cs.drop after.length with
  | [] => (name, none)
  | _ :: [] => (name, none)
  | _ :: before => (String.ofList before.reverse, some (String.ofList after.reverse))

def fileStem? (path : Path) : Option String := path.fileName?.map fun name => (splitName name).1

def extension? (path : Path) : Option String :=
  path.fileName?.bind fun name => (splitName name).2

def join (left right : Path) : Path :=
  if right.isAbsolute then right
  else if left.text.isEmpty ∨ left.text.toList.getLast? = some '/' then ⟨left.text ++ right.text⟩
  else ⟨left.text ++ "/" ++ right.text⟩

/-- Puts `name` in the place of the last component if that is a name, else behind it. -/
def withFileName (path : Path) (name : String) : Path :=
  match path.fileName?, path.parent? with
  | some _, some parent => parent.join ⟨name⟩
  | _, _ => path.join ⟨name⟩

/-- Equality by components. -/
def same (left right : Path) : Bool := left.components = right.components

end Path

end Colorization
