import Colorization.Yaml.Scanner

/-! YAML documents as trees. A node keeps its place, its tag and the number of its
anchor; an alias keeps the number of the anchor it names. -/
namespace Colorization.Yaml

structure Properties where
  mark : Mark
  tag : Option String
  anchor : Option Nat

inductive Node where
  | scalar (properties : Properties) (plain : Bool) (text : String)
  | sequence (properties : Properties) (items : List Node)
  | mapping (properties : Properties) (entries : List (Node × Node))
  | alias (mark : Mark) (anchor : Nat)

namespace Node

def empty (mark : Mark) : Node := .scalar ⟨mark, none, none⟩ true ""

/-- What has been read: the lexemes still to come, the numbers of the anchor names, and
the handles of tags with what they stand for. -/
structure Source where
  lexemes : List Lexeme
  anchors : List (String × Nat)
  handles : List (String × String)

abbrev Parse := StateT Source Option

def peek : Parse Lexeme := do
  match (← get).lexemes with
  | lexeme :: _ => return lexeme
  | [] => failure

def skip : Parse Unit := modify fun source => { source with lexemes := source.lexemes.drop 1 }

def next : Parse Lexeme := do
  let lexeme ← peek
  skip
  return lexeme

/-- A name gets the number of names known before it, also when it is known itself. -/
def declare (name : String) : Parse Nat := do
  let source ← get
  let number := source.anchors.length
  let others := source.anchors.filter (·.1 != name)
  set { source with anchors := (name, number) :: others }
  return number

def expandTag (handle suffix : String) : Parse String := do
  if handle.isEmpty then return suffix
  match (← get).handles.find? (·.1 = handle) with
  | some (_, uri) => return uri ++ suffix
  | none => failure

/-- An anchor and a tag, in either order, before a node. -/
def properties : Parse (Properties × Bool) := do
  let first ← peek
  match first.kind with
  | .anchor name =>
    skip
    let number ← declare name
    match (← peek).kind with
    | .tag handle suffix =>
      skip
      return (⟨first.start, some (← expandTag handle suffix), some number⟩, true)
    | _ => return (⟨first.start, none, some number⟩, true)
  | .tag handle suffix =>
    skip
    let second ← peek
    match second.kind with
    | .anchor name =>
      skip
      let tag ← expandTag handle suffix
      return (⟨first.start, some tag, some (← declare name)⟩, true)
    | _ => return (⟨first.start, some (← expandTag handle suffix), none⟩, true)
  | _ => return (⟨first.start, none, none⟩, false)

def isBlockStop : Kind → Bool
  | .key | .value | .blockEnd => true
  | _ => false

/-- What a node may be where it stands: in a block or between brackets, and whether the
entries of a sequence may stand at the column of the key above them. -/
inductive Place where
  | block | blockValue | flow
deriving DecidableEq

mutual

/-- One node. Properties without content stand for an empty text. -/
def node (place : Place) : Nat → Parse Node
  | 0 => failure
  | fuel + 1 => do
    let first ← peek
    match first.kind with
    | .alias name =>
      skip
      match (← get).anchors.find? (·.1 = name) with
      | some (_, number) => return .alias first.start number
      | none => failure
    | _ =>
      let (properties, given) ← properties
      let content ← peek
      match content.kind with
      | .scalar plain text =>
        skip
        return .scalar properties plain text
      | .flowSequenceStart =>
        skip
        return .sequence properties (← flowItems true fuel)
      | .flowMappingStart =>
        skip
        return .mapping properties (← flowEntries true fuel)
      | .blockSequenceStart =>
        if place = .flow then empty? properties given
        else
          skip
          return .sequence properties (← blockItems fuel)
      | .blockMappingStart =>
        if place = .flow then empty? properties given
        else
          skip
          return .mapping properties (← blockEntries fuel)
      | .blockEntry =>
        if place = .blockValue then return .sequence properties (← plainItems fuel)
        else empty? properties given
      | _ => empty? properties given
where
  empty? (properties : Properties) (given : Bool) : Parse Node :=
    if given then return .scalar properties true "" else failure

/-- The items of a block sequence up to its end. -/
def blockItems : Nat → Parse (List Node)
  | 0 => failure
  | fuel + 1 => do
    let mark ← next
    match mark.kind with
    | .blockEnd => return []
    | .blockEntry =>
      let following ← peek
      let item ← match following.kind with
        | .blockEntry | .blockEnd => pure (empty mark.stop)
        | _ => node .block fuel
      return item :: (← blockItems fuel)
    | _ => failure

/-- The items of a sequence at the column of its key. -/
def plainItems : Nat → Parse (List Node)
  | 0 => failure
  | fuel + 1 => do
    let mark ← peek
    match mark.kind with
    | .blockEntry =>
      skip
      let following ← peek
      let item ←
        if following.kind = .blockEntry || isBlockStop following.kind then pure (empty mark.stop)
        else node .block fuel
      return item :: (← plainItems fuel)
    | _ => return []

/-- The entries of a block mapping up to its end. -/
def blockEntries : Nat → Parse (List (Node × Node))
  | 0 => failure
  | fuel + 1 => do
    let mark ← next
    match mark.kind with
    | .blockEnd => return []
    | .key =>
      let following ← peek
      let key ←
        if isBlockStop following.kind then pure (empty mark.stop) else node .blockValue fuel
      let colon ← peek
      let value ← match colon.kind with
        | .value => do
          skip
          let following ← peek
          if isBlockStop following.kind then pure (empty colon.stop) else node .blockValue fuel
        | _ => pure (empty colon.start)
      return (key, value) :: (← blockEntries fuel)
    | _ => failure

/-- The items of a sequence in brackets. A key among them makes a mapping of one entry;
a key without content takes the lexeme behind it along. -/
def flowItems (first : Bool) : Nat → Parse (List Node)
  | 0 => failure
  | fuel + 1 => do
    let lexeme ← peek
    if lexeme.kind = .flowSequenceEnd then
      skip
      return []
    unless first do
      if lexeme.kind = .flowEntry then skip else failure
    let lexeme ← peek
    match lexeme.kind with
    | .flowSequenceEnd =>
      skip
      return []
    | .key =>
      skip
      let following ← peek
      let key ← match following.kind with
        | .value | .flowEntry | .flowSequenceEnd => do
          skip
          pure (empty following.start)
        | _ => node .flow fuel
      let value ← flowValue .flowSequenceEnd fuel
      let pair := Node.mapping ⟨lexeme.start, none, none⟩ [(key, value)]
      return pair :: (← flowItems false fuel)
    | _ =>
      let item ← node .flow fuel
      return item :: (← flowItems false fuel)

/-- The value behind a colon; without colon or content it is empty. -/
def flowValue (close : Kind) : Nat → Parse Node
  | 0 => failure
  | fuel + 1 => do
    let colon ← peek
    if colon.kind = .value then
      skip
      let following ← peek
      if following.kind = .flowEntry ∨ following.kind = close then return empty following.start
      else node .flow fuel
    else return empty colon.start

/-- The entries of a mapping in braces. -/
def flowEntries (first : Bool) : Nat → Parse (List (Node × Node))
  | 0 => failure
  | fuel + 1 => do
    let lexeme ← peek
    if lexeme.kind = .flowMappingEnd then
      skip
      return []
    unless first do
      if lexeme.kind = .flowEntry then skip else failure
    let lexeme ← peek
    match lexeme.kind with
    | .flowMappingEnd =>
      skip
      return []
    | .key =>
      skip
      let following ← peek
      let key ← match following.kind with
        | .value | .flowEntry | .flowMappingEnd => pure (empty following.start)
        | _ => node .flow fuel
      let value ← flowValue .flowMappingEnd fuel
      return (key, value) :: (← flowEntries false fuel)
    | _ =>
      let key ← node .flow fuel
      let following ← peek
      return (key, empty following.start) :: (← flowEntries false fuel)

end

def properties? : Node → Option Properties
  | .scalar properties _ _ => some properties
  | .sequence properties _ => some properties
  | .mapping properties _ => some properties
  | .alias _ _ => none

mutual

/-- The anchored nodes in the order in which they begin. -/
def anchored : Node → List (Nat × Node)
  | .scalar properties plain text => own properties (.scalar properties plain text)
  | .sequence properties items =>
    own properties (.sequence properties items) ++ anchoredItems items
  | .mapping properties entries =>
    own properties (.mapping properties entries) ++ anchoredEntries entries
  | .alias _ _ => []
where
  own (properties : Properties) (node : Node) : List (Nat × Node) :=
    (properties.anchor.map fun number => (number, node)).toList

def anchoredItems : List Node → List (Nat × Node)
  | [] => []
  | item :: rest => anchored item ++ anchoredItems rest

def anchoredEntries : List (Node × Node) → List (Nat × Node)
  | [] => []
  | (key, value) :: rest => anchored key ++ anchored value ++ anchoredEntries rest

end

end Node

/-- A stream of one document, or of none. -/
structure Document where
  root : Option Node

namespace Document

open Node

/-- The node that an alias stands for: the last one to take its number. -/
def resolve (document : Document) (node : Node) : Node :=
  match node with
  | .alias mark number =>
    let targets := (document.root.map anchored).getD []
    ((targets.reverse.find? (·.1 = number)).map (·.2)).getD (.empty mark)
  | other => other

def defaultHandles : List (String × String) := [("!", "!"), ("!!", "tag:yaml.org,2002:")]

/-- The directives before a document; none may be repeated. -/
def directives (version : Bool) : Nat → Parse Unit
  | 0 => failure
  | fuel + 1 => do
    match (← peek).kind with
    | .version major minor =>
      if version ∨ major ≠ 1 ∨ (minor ≠ 1 ∧ minor ≠ 2) then failure
      skip
      directives true fuel
    | .tagHandle handle uri =>
      let source ← get
      if source.handles.any (·.1 = handle) then failure
      set { source with handles := (handle, uri) :: source.handles }
      skip
      directives version fuel
    | _ => modify fun source => { source with handles := source.handles ++ defaultHandles }

def isDirective : Kind → Bool
  | .version _ _ | .tagHandle _ _ => true
  | _ => false

def content (fuel : Nat) : Parse Node := do
  let lexeme ← peek
  match lexeme.kind with
  | .version _ _ | .tagHandle _ _ | .documentStart | .documentEnd | .streamEnd =>
    return .empty lexeme.start
  | _ => node .block fuel

def rest : Parse Unit := do
  let lexemes := (← get).lexemes.dropWhile (·.kind = .documentEnd)
  match lexemes with
  | [end_] => if end_.kind = .streamEnd then return () else failure
  | _ => failure

def parse (fuel : Nat) : Parse Document := do
  let first ← peek
  if first.kind = .streamEnd then return ⟨none⟩
  directives false fuel
  let explicit := isDirective first.kind || first.kind = .documentStart
  if explicit then
    if (← next).kind ≠ .documentStart then failure
    let root ← content fuel
    rest
    return ⟨some root⟩
  else
    let root ← node .block fuel
    rest
    return ⟨some root⟩

/-- The document of a text that holds one at most. -/
def read? (text : String) : Option Document := do
  let lexemes ← Lexeme.scan? text
  (parse (4 * lexemes.length + 4)).run' ⟨lexemes, [], []⟩

end Document

end Colorization.Yaml
