import Colorization.Yaml.Scalar
import Colorization.Yaml.Tag

/-! Division of a YAML text into lexemes. Indentation opens and closes blocks. A
lexeme that may turn out to be a key is remembered by its number; when the colon
comes, the lexemes that mark it as a key are put in front of it. -/
namespace Colorization.Yaml

/-- A lexeme that becomes a key if a colon follows on its line. A required one must. -/
structure PossibleKey where
  required : Bool
  number : Nat
  mark : Mark

structure Scanner where
  cursor : Cursor
  /-- The column of the current block, -1 outside of all. -/
  indent : Int
  outerIndents : List Int
  /-- The possible key at this level of brackets. -/
  key : Option PossibleKey
  outerKeys : List (Option PossibleKey)
  keyAllowed : Bool
  /-- Held backwards. -/
  lexemes : List Lexeme

namespace Scanner

def start (text : List Char) : Scanner :=
  ⟨⟨.start, text⟩, -1, [], none, [], true, []⟩

def inFlow (s : Scanner) : Bool := !s.outerKeys.isEmpty

def mark (s : Scanner) : Mark := s.cursor.mark

def push (s : Scanner) (kind : Kind) (first last : Mark) : Scanner :=
  { s with lexemes := ⟨kind, first, last⟩ :: s.lexemes }

/-- Puts a lexeme in front of the one with the given number. -/
def insertAt (s : Scanner) (number : Nat) (kind : Kind) (mark : Mark) : Scanner :=
  let after := s.lexemes.length - number
  { s with lexemes := s.lexemes.take after ++ ⟨kind, mark, mark⟩ :: s.lexemes.drop after }

def isStale (now : Mark) (key : PossibleKey) : Bool :=
  key.mark.line < now.line || key.mark.index + 1024 < now.index

/-- A possible key does not outlive its line. -/
def dropStale (s : Scanner) : Option Scanner := do
  let refresh (key : Option PossibleKey) : Option (Option PossibleKey) :=
    match key with
    | none => some none
    | some found =>
      if isStale s.mark found then if found.required then none else some none else some key
  let key ← refresh s.key
  let outerKeys ← s.outerKeys.mapM refresh
  return { s with key, outerKeys }

def dropKey (s : Scanner) : Option Scanner :=
  match s.key with
  | none => some s
  | some key => if key.required then none else some { s with key := none }

/-- What comes next may be a key. -/
def saveKey (s : Scanner) : Option Scanner :=
  if s.keyAllowed then do
    let s ← s.dropKey
    let required := !s.inFlow && s.indent = s.cursor.column
    return { s with key := some ⟨required, s.lexemes.length, s.mark⟩ }
  else some s

/-- Opens a block at a deeper column, in front of the lexeme with the given number. -/
def openBlock (s : Scanner) (column : Nat) (number : Nat) (kind : Kind) (mark : Mark) :
    Scanner :=
  if !s.inFlow && s.indent < column then
    { s.insertAt number kind mark with
      indent := column, outerIndents := s.indent :: s.outerIndents }
  else s

/-- Closes the blocks that are deeper than a column. -/
def closeBlocks (s : Scanner) (column : Int) : Scanner :=
  if s.inFlow then s
  else close s s.outerIndents
where
  close (s : Scanner) : List Int → Scanner
    | [] => s
    | outer :: rest =>
      if column < s.indent then
        close { s.push .blockEnd s.mark s.mark with indent := outer, outerIndents := rest } rest
      else s

/-- Passes over blank space and comments. Tabs may not indent; a line break in a block
allows a key. -/
def skipGaps (s : Scanner) : Nat → Scanner
  | 0 => s
  | fuel + 1 =>
    let tabs := s.inFlow || !s.keyAllowed
    let cursor :=
      (s.cursor.skipOrderMark.skipWhile fun c => c = ' ' || tabs && c = '\t').skipComment
    if cursor.next?.any isBreak then
      skipGaps { s with cursor := cursor.skip 1, keyAllowed := s.keyAllowed || !s.inFlow } fuel
    else { s with cursor }

/-- Takes `count` characters as one lexeme. -/
def take (s : Scanner) (count : Nat) (kind : Kind) : Scanner :=
  let cursor := s.cursor.skip count
  { s.push kind s.mark cursor.mark with cursor }

def allow (s : Scanner) (keyAllowed : Bool) : Scanner := { s with keyAllowed }

def directive (s : Scanner) : Option Scanner := do
  let s ← (s.closeBlocks (-1)).dropKey
  let (kind, cursor) ← directive? s.cursor
  return { (s.allow false).push kind s.mark cursor.mark with cursor }

def documentMark (s : Scanner) (kind : Kind) : Option Scanner := do
  let s ← (s.closeBlocks (-1)).dropKey
  return (s.allow false).take 3 kind

def openFlow (s : Scanner) (kind : Kind) : Option Scanner := do
  let s ← s.saveKey
  return { (s.allow true).take 1 kind with key := none, outerKeys := s.key :: s.outerKeys }

def closeFlow (s : Scanner) (kind : Kind) : Option Scanner := do
  let s ← s.dropKey
  let s := match s.outerKeys with
    | [] => s
    | key :: outerKeys => { s with key, outerKeys }
  return (s.allow false).take 1 kind

def flowEntry (s : Scanner) : Option Scanner := do
  let s ← s.dropKey
  return (s.allow true).take 1 .flowEntry

/-- In a block, a mark that opens a new line of it. -/
def openAt (s : Scanner) (kind : Kind) : Option Scanner :=
  if s.inFlow then some s
  else if s.keyAllowed then some (s.openBlock s.cursor.column s.lexemes.length kind s.mark)
  else none

def blockEntry (s : Scanner) : Option Scanner := do
  let s ← (← s.openAt .blockSequenceStart).dropKey
  return (s.allow true).take 1 .blockEntry

def explicitKey (s : Scanner) : Option Scanner := do
  let s ← (← s.openAt .blockMappingStart).dropKey
  return (s.allow !s.inFlow).take 1 .key

def value (s : Scanner) : Option Scanner :=
  match s.key with
  | some key =>
    let s := s.insertAt key.number .key key.mark
    let s := s.openBlock key.mark.column key.number .blockMappingStart key.mark
    some (({ s with key := none }.allow false).take 1 .value)
  | none => do
    let s ← s.openAt .blockMappingStart
    return (s.allow !s.inFlow).take 1 .value

/-- A lexeme that may be a key itself. -/
def named (s : Scanner) (kind : String → Kind) : Option Scanner := do
  let s ← s.saveKey
  let (name, cursor) ← anchorName? s.cursor
  return { (s.allow false).push (kind name) s.mark cursor.mark with cursor }

def tag (s : Scanner) : Option Scanner := do
  let s ← s.saveKey
  let (handle, suffix, cursor) ← tag? s.cursor
  let ended := gapNext cursor.rest || s.inFlow && cursor.next? = some ','
  if ended then
    return { (s.allow false).push (.tag handle suffix) s.mark cursor.mark with cursor }
  else none

def scalar (s : Scanner) (plain : Bool) (keyAllowed : Bool) (scanned : Scanned) : Scanner :=
  { (s.allow keyAllowed).push (.scalar plain (String.ofList scanned.text)) s.mark
      scanned.cursor.mark with cursor := scanned.cursor }

def blockText (s : Scanner) (isLiteral : Bool) : Option Scanner := do
  let s ← s.dropKey
  return s.scalar false true (← block? isLiteral s.indent s.cursor)

def quotedText (s : Scanner) (scan : Mark → List Char → Option Scanned) : Option Scanner := do
  let s ← s.saveKey
  let inner := s.cursor.skip 1
  return s.scalar false false (← scan inner.mark inner.rest)

def plainText (s : Scanner) : Option Scanner := do
  let s ← s.saveKey
  let scanned ← plainFrom s.inFlow (s.indent + 1) [] .none s.mark s.cursor.rest
  return s.scalar true scanned.broken scanned

def indicators : List Char :=
  ['-', '?', ':', ',', '[', ']', '\x7b', '\x7d', '#', '&', '*', '!', '|', '>', '\x27', '"', '%',
    '@', '\x60']

/-- Some marks may begin a plain text if no gap follows. -/
def beginsPlain (inFlow : Bool) (c : Char) (rest : List Char) : Bool :=
  !(isGap c || indicators.contains c) ||
    c = '-' && !rest.head?.any isBlank ||
    !inFlow && (c = '?' || c = ':') && !gapNext rest

/-- The next lexeme, after blank space was passed over. -/
def lexeme (s : Scanner) (c : Char) (rest : List Char) : Option Scanner :=
  if s.cursor.column = 0 && c = '%' then s.directive
  else if s.cursor.atDocumentMark Cursor.startMark then s.documentMark .documentStart
  else if s.cursor.atDocumentMark Cursor.endMark then s.documentMark .documentEnd
  else if c = '[' then s.openFlow .flowSequenceStart
  else if c = '\x7b' then s.openFlow .flowMappingStart
  else if c = ']' then s.closeFlow .flowSequenceEnd
  else if c = '\x7d' then s.closeFlow .flowMappingEnd
  else if c = ',' then s.flowEntry
  else if c = '-' && gapNext rest then s.blockEntry
  else if c = '?' && (s.inFlow || gapNext rest) then s.explicitKey
  else if c = ':' && (s.inFlow || gapNext rest) then s.value
  else if c = '*' then s.named .alias
  else if c = '&' then s.named .anchor
  else if c = '!' then s.tag
  else if c = '|' && !s.inFlow then s.blockText true
  else if c = '>' && !s.inFlow then s.blockText false
  else if c = '\x27' then s.quotedText (singleQuotedFrom [] .none)
  else if c = '"' then s.quotedText (doubleQuotedFrom [] .none .outside)
  else if beginsPlain s.inFlow c rest then s.plainText
  else none

/-- The end of the text counts as the start of a line. -/
def finish (s : Scanner) : Option Scanner := do
  let mark := s.mark
  let mark := if mark.column = 0 then mark else ⟨mark.index, mark.line + 1, 0⟩
  let s := { s with cursor := ⟨mark, []⟩ }
  let s ← (s.closeBlocks (-1)).dropKey
  return s.push .streamEnd mark mark

/-- Every lexeme takes a character at least. -/
def run (s : Scanner) : Nat → Option Scanner
  | 0 => none
  | fuel + 1 => do
    let s ← (s.skipGaps (s.cursor.rest.length + 1)).dropStale
    let s := s.closeBlocks s.cursor.column
    match s.cursor.rest with
    | [] => s.finish
    | c :: rest => run (← s.lexeme c rest) fuel

end Scanner

/-- The lexemes of a text, if it can be divided into lexemes. -/
def Lexeme.scan? (text : String) : Option (List Lexeme) := do
  if text.toList.all isAllowed then
    let cs := unifyBreaks text.toList
    let s ← (Scanner.start cs).run (cs.length + 1)
    return s.lexemes.reverse
  else none

end Colorization.Yaml
