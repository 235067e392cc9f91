import Colorization.Json.Quoted
import Colorization.Json.Value

/-! Writing JSON text, without any blanks or with one item to a line. -/
namespace Colorization.Json

/-- The blanks of a layout: what begins a line at a depth of nesting, and what follows
the colon of a member. -/
structure Layout where
  line : Nat → List Char
  afterColon : List Char

namespace Layout

def compact : Layout := ⟨fun _ => [], []⟩

def indented (unit : List Char) : Layout :=
  ⟨fun depth => '\n' :: (List.replicate depth unit).flatten, [' ']⟩

end Layout

def Number.written : Number → List Char
  | .integer value => (toString value).toList
  | .real negative magnitude => (realText negative magnitude).toList

/-- Items between their marks; each begins a line. -/
def bracketed (layout : Layout) (depth : Nat) (first last : Char) : List (List Char) → List Char
  | [] => [first, last]
  | item :: rest =>
    first :: (layout.line (depth + 1) ++ item ++
      rest.flatMap (fun other => ',' :: (layout.line (depth + 1) ++ other)) ++
      layout.line depth ++ [last])

mutual

def written (layout : Layout) (depth : Nat) : Json → List Char
  | .null => "null".toList
  | .bool true => "true".toList
  | .bool false => "false".toList
  | .number value => value.written
  | .text value => quoted value
  | .array items => bracketed layout depth '[' ']' (writtenItems layout (depth + 1) items)
  | .object members =>
    bracketed layout depth '\x7b' '\x7d' (writtenMembers layout (depth + 1) members)

def writtenItems (layout : Layout) (depth : Nat) : List Json → List (List Char)
  | [] => []
  | item :: rest => written layout depth item :: writtenItems layout depth rest

def writtenMembers (layout : Layout) (depth : Nat) : List (String × Json) → List (List Char)
  | [] => []
  | (key, value) :: rest =>
    (quoted key ++ ':' :: (layout.afterColon ++ written layout depth value)) ::
      writtenMembers layout depth rest

end

def write (layout : Layout) (value : Json) : String := String.ofList (written layout 0 value)

end Colorization.Json
