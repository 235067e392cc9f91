import Colorization.Config.Basic
import Colorization.Yaml.Node

/-! Settings from YAML text. Unknown keys are passed over and missing ones have their
default. A fault tells the path of keys and the place of the node it was found at. -/
namespace Colorization

namespace Config

open Yaml (Node Document Mark Meaning)

/-- What a setting should have been. -/
inductive Wanted where
  | sequence | text | path | config | tokenizer | fieldName | formatTag | unit
  | null | boolean | integer | float
deriving DecidableEq

def Wanted.message : Wanted → String
  | .sequence => "a sequence"
  | .text => "a string"
  | .path => "path string"
  | .config => "struct ColorizeConfig"
  | .tokenizer => "struct TokenizerCommand"
  | .fieldName => "field identifier"
  | .formatTag => "a YAML tag starting with '!'"
  | .unit => "unit"
  | .null => "null"
  | .boolean => "a boolean"
  | .integer => "an integer"
  | .float => "a float"

/-- What was found instead. -/
inductive Found where
  | sequence
  | mapping
  | scalar (meaning : Meaning) (text : String)

/-- Whole numbers past 64 bits are cited with their width. -/
def citedInteger (value : Int) : String :=
  if value < -(Int.pow 2 63) then s!"integer `{value}` as i128"
  else if value < Int.pow 2 64 then s!"integer `{value}`"
  else s!"integer `{value}` as u128"

def sign (negative : Bool) : String := if negative then "-" else ""

def Found.message : Found → String
  | .sequence => "sequence"
  | .mapping => "map"
  | .scalar .null _ => "unit value"
  | .scalar (.bool value) _ => s!"boolean `{value}`"
  | .scalar (.integer value) _ => citedInteger value
  | .scalar (.real negative magnitude) _ =>
    s!"floating point `{sign negative}{magnitude.shortest.text fun _ => true}`"
  | .scalar (.infinity negative) _ => s!"floating point `{sign negative}inf`"
  | .scalar .notANumber _ => "floating point `NaN`"
  | .scalar .text text => "string " ++ Text.quoted text

inductive Setting where
  | fixturesDir | resultsDir | exportsDir | fixtureExtensions | format | themes | tokenizer
deriving DecidableEq

namespace Setting

def name : Setting → String
  | .fixturesDir => "fixtures_dir"
  | .resultsDir => "results_dir"
  | .exportsDir => "exports_dir"
  | .fixtureExtensions => "fixture_extensions"
  | .format => "format"
  | .themes => "themes"
  | .tokenizer => "tokenizer"

def all : List Setting :=
  [.fixturesDir, .resultsDir, .exportsDir, .fixtureExtensions, .format, .themes, .tokenizer]

end Setting

inductive Cause where
  | wrongType (found : Found) (wanted : Wanted)
  | wrongValue (text : String) (wanted : Wanted)
  | duplicate (key : String)
  | unknownFormat (name : String)

def Cause.message : Cause → String
  | .wrongType found wanted => s!"invalid type: {found.message}, expected {wanted.message}"
  | .wrongValue text wanted =>
    s!"invalid value: string {Text.quoted text}, expected {wanted.message}"
  | .duplicate key => s!"duplicate field `{key}`"
  | .unknownFormat name =>
    s!"unknown variant `{name}`, expected one of `pretty`, `compact`, `json`"

inductive Step where
  | key (name : String)
  | index (n : Nat)
  /-- Under a key that is not written as a text. -/
  | unnamed

def pathText : List Step → String
  | [] => ""
  | .key name :: rest => name ++ further rest
  | .unnamed :: rest => "?" ++ further rest
  | .index n :: rest => s!".[{n}]" ++ further rest
where
  further : List Step → String
    | [] => ""
    | .key name :: rest => "." ++ name ++ further rest
    | .unnamed :: rest => ".?" ++ further rest
    | .index n :: rest => s!"[{n}]" ++ further rest

structure Fault where
  cause : Cause
  place : Option (List Step × Mark)

/-- The start of the text is not told as a place. -/
def Fault.message (fault : Fault) : String :=
  match fault.place with
  | none => fault.cause.message
  | some (path, mark) =>
    let location :=
      if mark.line = 0 ∧ mark.column = 0 then ""
      else s!" at line {mark.line + 1} column {mark.column + 1}"
    (if path.isEmpty then "" else pathText path ++ ": ") ++ fault.cause.message ++ location

/-- Gives a fault its place unless it has one already. -/
def locate (path : List Step) (mark : Mark) (result : Except Fault α) : Except Fault α :=
  result.mapError fun fault =>
    match fault.place with
    | none => { fault with place := some (path, mark) }
    | some _ => fault

def fail (cause : Cause) : Except Fault α := .error ⟨cause, none⟩

def coreTag (name : String) : String := "tag:yaml.org,2002:" ++ name

/-- The fault of a scalar of another type. A tag of the core types decides the type, a
local tag leaves it open, and any other makes a text. -/
def scalarFault (tag : Option String) (plain : Bool) (text : String) (wanted : Wanted) : Cause :=
  let as (meaning : Meaning) : Cause := .wrongType (.scalar meaning text) wanted
  match tag with
  | none => as (if plain then .ofPlain text else .text)
  | some tag =>
    if tag = coreTag "bool" then
      match Yaml.bool? text with
      | some value => as (.bool value)
      | none => .wrongValue text .boolean
    else if tag = coreTag "int" then
      match Yaml.integer? text.toList with
      | some value => as (.integer value)
      | none => .wrongValue text .integer
    else if tag = coreTag "float" then
      match Yaml.real? text.toList with
      | some meaning => as meaning
      | none => .wrongValue text .float
    else if tag = coreTag "null" then
      if text ≠ "" ∧ Yaml.isNull text then as .null else .wrongValue text .null
    else if plain && tag.startsWith "!" then as (.ofPlain text)
    else as .text

def wrongType (node : Node) (wanted : Wanted) : Cause :=
  match node with
  | .scalar properties plain text => scalarFault properties.tag plain text wanted
  | .sequence _ _ => .wrongType .sequence wanted
  | .mapping _ _ => .wrongType .mapping wanted
  | .alias _ _ => .wrongType .sequence wanted

def markOf : Node → Mark
  | .scalar properties _ _ => properties.mark
  | .sequence properties _ => properties.mark
  | .mapping properties _ => properties.mark
  | .alias mark _ => mark

/-- Every scalar is a text, whatever it looks like. -/
def readText (document : Document) (wanted : Wanted) (path : List Step) (node : Node) :
    Except Fault String :=
  let node := document.resolve node
  locate path (markOf node) <|
    match node with
    | .scalar _ _ text => .ok text
    | other => fail (wrongType other wanted)

def readPath (document : Document) (path : List Step) (node : Node) : Except Fault Path :=
  (readText document .path path node).map Path.mk

def isEmptyPlain : Node → Bool
  | .scalar _ plain text => plain && text.isEmpty
  | _ => false

def readItems (document : Document) (path : List Step) (index : Nat) :
    List Node → Except Fault (List String)
  | [] => .ok []
  | item :: rest => do
    let text ← readText document .text (path ++ [.index index]) item
    return text :: (← readItems document path (index + 1) rest)

def readTexts (document : Document) (path : List Step) (node : Node) :
    Except Fault (List String) :=
  let node := document.resolve node
  locate path (markOf node) <|
    match node with
    | .sequence _ items => readItems document path 0 items
    | other => if isEmptyPlain other then .ok [] else fail (wrongType other .sequence)

def formatNamed (name : String) : Except Fault Format :=
  if name = "pretty" then .ok .pretty
  else if name = "compact" ∨ name = "json" then .ok .compact
  else fail (.unknownFormat name)

/-- The name of a local tag; the mark alone names itself. -/
def localTag? (node : Node) : Option String :=
  node.properties?.bind fun properties => properties.tag.bind fun tag =>
    match tag.toList with
    | ['!'] => some tag
    | '!' :: name => some (String.ofList name)
    | _ => none

/-- A format is a text, or a tag before nothing. -/
def readFormat (document : Document) (path : List Step) (node : Node) : Except Fault Format :=
  let node := document.resolve node
  match localTag? node with
  | some name => do
    let format ← formatNamed name
    locate path (markOf node) <|
      match node with
      | .scalar _ plain text =>
        if plain && Yaml.isNull text then .ok format else fail (.wrongValue text .null)
      | other => fail (wrongType other .unit)
  | none =>
    locate path (markOf node) <|
      match node with
      | .scalar _ _ text => formatNamed text
      | other => fail (wrongType other .formatTag)

def readProgram (document : Document) (path : List Step) (node : Node) :
    Except Fault (Option String) :=
  match document.resolve node with
  | .scalar properties true text =>
    if properties.tag = none then
      if Yaml.isNull text then .ok none else .ok (some text)
    else if properties.tag = some (coreTag "null") then
      if text ≠ "" ∧ Yaml.isNull text then .ok none else fail (.wrongValue text .null)
    else .ok (some text)
  | other => (readText document .text path other).map some

/-- The step of a path that a key makes. -/
def stepOf : Node → Step
  | .scalar _ _ text => .key text
  | _ => .unnamed

/-- The entries of a mapping one by one; `read` takes a key, the path of its value and
the value. -/
def foldEntries (document : Document) (path : List Step)
    (read : α → String → List Step → Node → Except Fault α) (start : α) (node : Node)
    (wanted : Wanted) : Except Fault α :=
  let node := document.resolve node
  locate path (markOf node) <|
    match node with
    | .mapping _ entries =>
      entries.foldlM (fun state entry => do
        let key ← readText document .fieldName path entry.1
        read state key (path ++ [stepOf entry.1]) entry.2) start
    | other => if isEmptyPlain other then .ok start else fail (wrongType other wanted)

/-- A draft with the keys that were set in it. -/
structure Draft (α : Type) where
  value : α
  seen : List String

namespace Draft

def start (value : α) : Draft α := ⟨value, []⟩

def set (draft : Draft α) (key : String) (update : Except Fault (α → α)) :
    Except Fault (Draft α) :=
  if draft.seen.contains key then fail (.duplicate key)
  else do
    let update ← update
    return ⟨update draft.value, key :: draft.seen⟩

end Draft

def readTokenizer (document : Document) (path : List Step) (node : Node) :
    Except Fault TokenizerCommand := do
  let draft ← foldEntries document path (fun draft key path node =>
    if key = "program" then
      draft.set key do
        let program ← readProgram document path node
        return fun command => { command with program }
    else if key = "args" then
      draft.set key do
        let args ← readTexts document path node
        return fun command => { command with args }
    else .ok draft) (Draft.start TokenizerCommand.default) node .tokenizer
  return draft.value

def readSetting (document : Document) (path : List Step) (node : Node) :
    Setting → Except Fault (Config → Config)
  | .fixturesDir => do
    let fixturesDir ← readPath document path node
    return fun config => { config with fixturesDir }
  | .resultsDir => do
    let resultsDir ← readPath document path node
    return fun config => { config with resultsDir }
  | .exportsDir => do
    let exportsDir ← readPath document path node
    return fun config => { config with exportsDir }
  | .fixtureExtensions => do
    let fixtureExtensions ← readTexts document path node
    return fun config => { config with fixtureExtensions }
  | .format => do
    let format ← readFormat document path node
    return fun config => { config with format }
  | .themes => do
    let themes ← readTexts document path node
    return fun config => { config with themes }
  | .tokenizer => do
    let tokenizer ← readTokenizer document path node
    return fun config => { config with tokenizer }

def ofDocument (document : Document) : Except Fault Config :=
  match document.root with
  | none => .ok .default
  | some root => do
    let draft ← foldEntries document [] (fun draft key path node =>
      match Setting.all.find? (·.name = key) with
      | none => .ok draft
      | some setting => draft.set key (readSetting document path node setting))
      (Draft.start Config.default) root .config
    return draft.value

/-- Why a text gives no settings. -/
inductive YamlFault where
  | malformed
  | unfit (fault : Fault)

def YamlFault.message : YamlFault → String
  | .malformed => "YAML parse error"
  | .unfit fault => "YAML parse error: " ++ fault.message

def ofYaml (text : String) : Except YamlFault Config :=
  match Yaml.Document.read? text with
  | none => .error .malformed
  | some document => (ofDocument document).mapError .unfit

end Config

end Colorization
