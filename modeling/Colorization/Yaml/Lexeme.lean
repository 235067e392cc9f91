import Colorization.Yaml.Character

/-! Places in a YAML text and the lexemes found there. Lines and columns count from
zero; columns are characters. -/
namespace Colorization.Yaml

structure Mark where
  index : Nat
  line : Nat
  column : Nat
deriving DecidableEq

def Mark.start : Mark := ⟨0, 0, 0⟩

def Mark.advance (mark : Mark) (c : Char) : Mark :=
  if isBreak c then ⟨mark.index + 1, mark.line + 1, 0⟩
  else ⟨mark.index + 1, mark.line, mark.column + 1⟩

/-- The text that is still to be read. -/
structure Cursor where
  mark : Mark
  rest : List Char

namespace Cursor

def column (cursor : Cursor) : Nat := cursor.mark.column

def next? (cursor : Cursor) : Option Char := cursor.rest.head?

def skip (cursor : Cursor) : Nat → Cursor
  | 0 => cursor
  | n + 1 =>
    match cursor.rest with
    | [] => cursor
    | c :: rest => skip ⟨cursor.mark.advance c, rest⟩ n

/-- The longest run of characters of a kind, and what follows it. -/
def spanFrom (test : Char → Bool) (mark : Mark) : List Char → List Char × Cursor
  | [] => ([], ⟨mark, []⟩)
  | c :: rest =>
    if test c then
      let (taken, cursor) := spanFrom test (mark.advance c) rest
      (c :: taken, cursor)
    else ([], ⟨mark, c :: rest⟩)

def span (cursor : Cursor) (test : Char → Bool) : List Char × Cursor :=
  spanFrom test cursor.mark cursor.rest

def skipWhile (cursor : Cursor) (test : Char → Bool) : Cursor := (cursor.span test).2

/-- Passes over a comment if one begins here. -/
def skipComment (cursor : Cursor) : Cursor :=
  if cursor.next? = some '#' then cursor.skipWhile (!isBreak ·) else cursor

/-- Passes over a byte order mark at the start of a line. It takes up a column. -/
def skipOrderMark (cursor : Cursor) : Cursor :=
  if cursor.column = 0 && cursor.next?.any isOrderMark then cursor.skip 1 else cursor

/-- Blanks, a comment and the line break after them; nothing else may stand there. -/
def finishLine? (cursor : Cursor) : Option Cursor :=
  let cursor := (cursor.skipWhile isBlank).skipComment
  match cursor.next? with
  | none => some cursor
  | some c => if isBreak c then some (cursor.skip 1) else none

/-- A document mark at the start of a line. -/
def atDocumentMark (mark : List Char) (cursor : Cursor) : Bool :=
  cursor.column = 0 && mark.isPrefixOf cursor.rest && gapNext (cursor.rest.drop 3)

def startMark : List Char := ['-', '-', '-']
def endMark : List Char := ['.', '.', '.']

def atAnyDocumentMark (cursor : Cursor) : Bool :=
  cursor.atDocumentMark startMark || cursor.atDocumentMark endMark

end Cursor

inductive Kind where
  | version (major minor : Nat)
  | tagHandle (handle uri : String)
  | documentStart | documentEnd
  | blockSequenceStart | blockMappingStart | blockEnd
  | flowSequenceStart | flowSequenceEnd | flowMappingStart | flowMappingEnd
  | blockEntry | flowEntry
  | key | value
  | alias (name : String)
  | anchor (name : String)
  | tag (handle suffix : String)
  | scalar (plain : Bool) (text : String)
  | streamEnd
deriving DecidableEq

structure Lexeme where
  kind : Kind
  start : Mark
  stop : Mark

end Colorization.Yaml
