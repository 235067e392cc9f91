import Colorization.Json.Reader
import Colorization.Json.Writer
import Colorization.Text.Quoted
import Colorization.Token.Basic

/-! Captures as JSON documents. Writing uses the long field names in a fixed order;
reading also takes the one-letter names of raw captures, records written as arrays, and
any further members. -/
namespace Colorization

inductive Field where
  | content | scope | themeColors
deriving DecidableEq

namespace Field

def name : Field → String
  | .content => "content"
  | .scope => "scope"
  | .themeColors => "themeColors"

def shortName : Field → String
  | .content => "c"
  | .scope => "t"
  | .themeColors => "r"

def all : List Field := [.content, .scope, .themeColors]

def ofKey? (key : String) : Option Field :=
  all.find? fun field => key == field.name || key == field.shortName

end Field

inductive Expected where
  | record | text | map
deriving DecidableEq

def Expected.message : Expected → String
  | .record => "struct TokenRecord"
  | .text => "a string"
  | .map => "a map"

/-- Why a JSON value is no token. -/
inductive RecordFault where
  | wrongType (found : Json) (expected : Expected)
  | duplicate (field : Field)
  | missing (field : Field)
  | tooShort (length : Nat)
  | tooLong (length : Nat)

/-- Why a text is no capture. -/
inductive DocumentFault where
  | unreadable (error : Json.ReadError)
  | notArray (found : Json)
  | record (index : Nat) (fault : RecordFault)

namespace Json

def kind : Json → String
  | .null => "null"
  | .bool _ => "a boolean"
  | .number _ => "a number"
  | .text _ => "a string"
  | .array _ => "an array"
  | .object _ => "an object"

/-- A value as an error message cites it. -/
def cited : Json → String
  | .null => "null"
  | .bool value => s!"boolean `{value}`"
  | .number (.integer value) => s!"integer `{value}`"
  | .number (.real negative magnitude) =>
    s!"floating point `{Number.realText negative magnitude}`"
  | .text value => "string " ++ Text.quoted value
  | .array _ => "sequence"
  | .object _ => "map"

end Json

def RecordFault.message : RecordFault → String
  | .wrongType found expected => s!"invalid type: {found.cited}, expected {expected.message}"
  | .duplicate field => s!"duplicate field `{field.name}`"
  | .missing field => s!"missing field `{field.name}`"
  | .tooShort length => s!"invalid length {length}, expected struct TokenRecord with 3 elements"
  | .tooLong length => s!"invalid length {length}, expected fewer elements in array"

def DocumentFault.message : DocumentFault → String
  | .unreadable error => error.message
  | .notArray found => s!"expected a JSON array of tokens, found {found.kind}"
  | .record index fault => s!"token {index}: {fault.message}"

namespace Token

def readText : Json → Except RecordFault String
  | .text value => .ok value
  | other => .error (.wrongType other .text)

def readColors : Json → Except RecordFault ThemeColors
  | .object members => do
    let pairs ← members.mapM fun member => do
      let color ← readText member.2
      return (member.1, color)
    return Dict.ofList pairs
  | other => .error (.wrongType other .map)

/-- The fields found so far. -/
structure Draft where
  content : Option String
  scope : Option String
  themeColors : Option ThemeColors

namespace Draft

def empty : Draft := ⟨none, none, none⟩

def has (draft : Draft) : Field → Bool
  | .content => draft.content.isSome
  | .scope => draft.scope.isSome
  | .themeColors => draft.themeColors.isSome

/-- A field may be given once, under either name; members of other names are passed
over. -/
def add (draft : Draft) (member : String × Json) : Except RecordFault Draft :=
  match Field.ofKey? member.1 with
  | none => .ok draft
  | some field =>
    if draft.has field then .error (.duplicate field)
    else
      match field with
      | .content => do
        let value ← readText member.2
        return { draft with content := some value }
      | .scope => do
        let value ← readText member.2
        return { draft with scope := some value }
      | .themeColors => do
        let value ← readColors member.2
        return { draft with themeColors := some value }

def finish (draft : Draft) : Except RecordFault Token :=
  match draft.content, draft.scope, draft.themeColors with
  | none, _, _ => .error (.missing .content)
  | _, none, _ => .error (.missing .scope)
  | _, _, none => .error (.missing .themeColors)
  | some content, some scope, some themeColors => .ok ⟨content, scope, themeColors⟩

end Draft

def ofJson : Json → Except RecordFault Token
  | .object members => do
    let draft ← members.foldlM Draft.add Draft.empty
    draft.finish
  | .array items => do
    let some first := items[0]? | .error (.tooShort 0)
    let content ← readText first
    let some second := items[1]? | .error (.tooShort 1)
    let scope ← readText second
    let some third := items[2]? | .error (.tooShort 2)
    let themeColors ← readColors third
    if items.length ≤ 3 then return ⟨content, scope, themeColors⟩
    else .error (.tooLong items.length)
  | other => .error (.wrongType other .record)

end Token

def ThemeColors.toJson (colors : ThemeColors) : Json :=
  .object (colors.entries.map fun entry => (entry.1, .text entry.2))

def Token.toJson (token : Token) : Json :=
  .object [(Field.content.name, .text token.content), (Field.scope.name, .text token.scope),
    (Field.themeColors.name, token.themeColors.toJson)]

inductive Format where
  | pretty | compact
deriving DecidableEq

def Format.layout : Format → Json.Layout
  | .pretty => .indented ['\t']
  | .compact => .compact

namespace Capture

/-- The records from `index` on; the first bad one is reported. -/
def ofItems (index : Nat) : List Json → Except DocumentFault Capture
  | [] => .ok []
  | item :: rest =>
    match Token.ofJson item with
    | .error fault => .error (.record index fault)
    | .ok token => do
      let tokens ← ofItems (index + 1) rest
      return token :: tokens

def ofJson : Json → Except DocumentFault Capture
  | .array items => ofItems 0 items
  | other => .error (.notArray other)

def deserialize (text : String) : Except DocumentFault Capture :=
  match Json.read text with
  | .error error => .error (.unreadable error)
  | .ok value => ofJson value

def toJson (capture : Capture) : Json := .array (capture.map Token.toJson)

def serialize (capture : Capture) (format : Format) : String :=
  capture.toJson.write format.layout

end Capture

end Colorization
