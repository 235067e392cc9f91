import Colorization.Yaml.Lexeme

/-! The texts of plain, quoted and block scalars. Blanks around a line break are
dropped and a single break becomes a space; of several breaks the first is dropped.
The separators of Unicode are kept. -/
namespace Colorization.Yaml

/-- Blank space that belongs to the text only if more text follows. -/
structure Pending where
  blanks : List Char
  broken : Bool
  firstBreak : List Char
  laterBreaks : List Char

namespace Pending

def none : Pending := ⟨[], false, [], []⟩

/-- After an escaped line break: blank space is dropped, further breaks are kept. -/
def escapedBreak : Pending := ⟨[], true, [], []⟩

def addBlank (pending : Pending) (c : Char) : Pending :=
  if pending.broken then pending else { pending with blanks := pending.blanks ++ [c] }

def addBreak (pending : Pending) (c : Char) : Pending :=
  if pending.broken then { pending with laterBreaks := pending.laterBreaks ++ [c] }
  else ⟨[], true, [c], []⟩

def joined (pending : Pending) : List Char :=
  if pending.broken then
    if pending.firstBreak = ['\n'] then
      if pending.laterBreaks.isEmpty then [' '] else pending.laterBreaks
    else pending.firstBreak ++ pending.laterBreaks
  else pending.blanks

def isNone (pending : Pending) : Bool := !pending.broken && pending.blanks.isEmpty

/-- Appends the blank space to a text that is held backwards. -/
def flush (pending : Pending) (before : List Char) : List Char :=
  pending.joined.reverse ++ before

end Pending

/-- A scalar, the place of its end, and whether the text after it begins a line. -/
structure Scanned where
  text : List Char
  cursor : Cursor
  broken : Bool

/-- Reads a single-quoted text after its first mark. -/
def singleQuotedFrom (before : List Char) (pending : Pending) (mark : Mark) :
    List Char → Option Scanned
  | [] => none
  | c :: rest =>
    if Cursor.atAnyDocumentMark ⟨mark, c :: rest⟩ then none
    else if isBlank c then
      singleQuotedFrom before (pending.addBlank c) (mark.advance c) rest
    else if isBreak c then
      singleQuotedFrom before (pending.addBreak c) (mark.advance c) rest
    else if c = '\x27' then
      match rest with
      | '\x27' :: more =>
        singleQuotedFrom ('\x27' :: pending.flush before) .none
          ((mark.advance c).advance '\x27') more
      | _ => some ⟨(pending.flush before).reverse, ⟨mark.advance c, rest⟩, false⟩
    else singleQuotedFrom (c :: pending.flush before) .none (mark.advance c) rest

/-- Where a double-quoted text stands: between escapes, after a backslash, or at the
digits of a code point. -/
inductive Escape where
  | outside
  | begun
  | digits (left value : Nat)

def escapes : List (Char × Char) :=
  [('0', '\x00'), ('a', '\x07'), ('b', '\x08'), ('t', '\t'), ('\t', '\t'), ('n', '\n'),
    ('v', '\x0b'), ('f', '\x0c'), ('r', '\r'), ('e', '\x1b'), (' ', ' '), ('"', '"'),
    ('/', '/'), ('\\', '\\'), ('N', '\x85'), ('_', '\xa0'), ('L', '\u2028'), ('P', '\u2029')]

def digitCounts : List (Char × Nat) := [('x', 2), ('u', 4), ('U', 8)]

def hexDigit? (c : Char) : Option Nat :=
  if '0' ≤ c ∧ c ≤ '9' then some (c.toNat - '0'.toNat)
  else if 'a' ≤ c ∧ c ≤ 'f' then some (c.toNat - 'a'.toNat + 10)
  else if 'A' ≤ c ∧ c ≤ 'F' then some (c.toNat - 'A'.toNat + 10)
  else none

/-- Surrogates and numbers past the last code point have no character. -/
def codePoint? (n : Nat) : Option Char :=
  if h : n.isValidChar then some (Char.ofNatAux n h) else none

/-- Reads a double-quoted text after its first mark. -/
def doubleQuotedFrom (before : List Char) (pending : Pending) (escape : Escape) (mark : Mark) :
    List Char → Option Scanned
  | [] => none
  | c :: rest =>
    match escape with
    | .digits left value =>
      match hexDigit? c with
      | none => none
      | some digit =>
        let value := value * 16 + digit
        if left ≤ 1 then
          match codePoint? value with
          | none => none
          | some point => doubleQuotedFrom (point :: before) .none .outside (mark.advance c) rest
        else doubleQuotedFrom before .none (.digits (left - 1) value) (mark.advance c) rest
    | .begun =>
      if isBreak c then doubleQuotedFrom before .escapedBreak .outside (mark.advance c) rest
      else
        match escapes.find? (·.1 = c), digitCounts.find? (·.1 = c) with
        | some (_, point), _ =>
          doubleQuotedFrom (point :: before) .none .outside (mark.advance c) rest
        | none, some (_, count) =>
          doubleQuotedFrom before .none (.digits count 0) (mark.advance c) rest
        | none, none => none
    | .outside =>
      if Cursor.atAnyDocumentMark ⟨mark, c :: rest⟩ then none
      else if isBlank c then
        doubleQuotedFrom before (pending.addBlank c) .outside (mark.advance c) rest
      else if isBreak c then
        doubleQuotedFrom before (pending.addBreak c) .outside (mark.advance c) rest
      else if c = '"' then
        some ⟨(pending.flush before).reverse, ⟨mark.advance c, rest⟩, false⟩
      else if c = '\\' then
        doubleQuotedFrom (pending.flush before) .none .begun (mark.advance c) rest
      else doubleQuotedFrom (c :: pending.flush before) .none .outside (mark.advance c) rest

def isFlowMark (c : Char) : Bool :=
  c = ',' || c = '[' || c = ']' || c = '\x7b' || c = '\x7d'

/-- Reads a plain text. It ends before a comment, a colon with a gap behind it, a
document mark, a line indented less than `indent` and, inside brackets, before any of
their marks. -/
def plainFrom (flow : Bool) (indent : Int) (before : List Char) (pending : Pending)
    (mark : Mark) : List Char → Option Scanned
  | [] => some ⟨before.reverse, ⟨mark, []⟩, pending.broken⟩
  | c :: rest =>
    let stop : Option Scanned := some ⟨before.reverse, ⟨mark, c :: rest⟩, pending.broken⟩
    if isBlank c then
      if pending.broken && mark.column < indent && c = '\t' then none
      else plainFrom flow indent before (pending.addBlank c) (mark.advance c) rest
    else if isBreak c then
      plainFrom flow indent before (pending.addBreak c) (mark.advance c) rest
    else if !pending.isNone && !flow && mark.column < indent then stop
    else if Cursor.atAnyDocumentMark ⟨mark, c :: rest⟩ then stop
    else if !pending.isNone && c = '#' then stop
    else if flow && c = ':' && rest.head?.any (fun d => isFlowMark d || d = '?') then none
    else if c = ':' && gapNext rest then stop
    else if flow && isFlowMark c then stop
    else plainFrom flow indent (c :: pending.flush before) .none (mark.advance c) rest

/-- The line breaks before the next line of a block text. Without a known indentation
the deepest column seen is returned. -/
structure Margin where
  breaks : List Char
  deepest : Nat
  cursor : Cursor

def marginFrom (indent : Nat) (breaks : List Char) (deepest : Nat) (mark : Mark) :
    List Char → Option Margin
  | [] => some ⟨breaks, max deepest mark.column, ⟨mark, []⟩⟩
  | c :: rest =>
    let inside := indent = 0 ∨ mark.column < indent
    if inside ∧ c = ' ' then marginFrom indent breaks deepest (mark.advance c) rest
    else if inside ∧ c = '\t' then none
    else if isBreak c then
      marginFrom indent (breaks ++ [c]) (max deepest mark.column) (mark.advance c) rest
    else some ⟨breaks, max deepest mark.column, ⟨mark, c :: rest⟩⟩

inductive Chomping where
  | strip | clip | keep
deriving DecidableEq

/-- The lines of a block text from here on. In a folded text a break between two lines
that begin with no blank becomes a space. -/
def blockLines (isLiteral : Bool) (indent : Nat) (text lineBreak breaks : List Char)
    (blankBefore : Bool) (cursor : Cursor) : Nat → Option (List Char × List Char × List Char × Cursor)
  | 0 => none
  | fuel + 1 =>
    if cursor.column = indent ∧ cursor.rest ≠ [] then
      let blankHere := cursor.next?.any isBlank
      let joint :=
        if !isLiteral && lineBreak = ['\n'] && !blankBefore && !blankHere then
          if breaks.isEmpty then [' '] else []
        else lineBreak
      let (line, afterLine) := cursor.span (!isBreak ·)
      let newBreak := afterLine.rest.take 1
      let next := afterLine.skip 1
      match marginFrom indent [] 0 next.mark next.rest with
      | none => none
      | some margin =>
        blockLines isLiteral indent (text ++ joint ++ breaks ++ line) newBreak margin.breaks
          blankHere margin.cursor fuel
    else some (text, lineBreak, breaks, cursor)

def digit (c : Char) : Nat := c.toNat - '0'.toNat

/-- The signs between the mark of a block text and the end of its line: what becomes of
the last breaks, and the indentation. -/
def blockHeader : List Char → Option (Chomping × Nat × Nat)
  | c :: d :: _ =>
    let sign (c : Char) : Option Chomping :=
      if c = '+' then some .keep else if c = '-' then some .strip else none
    match sign c with
    | some chomping =>
      if d.isDigit then if d = '0' then none else some (chomping, digit d, 2)
      else some (chomping, 0, 1)
    | none =>
      if c.isDigit then
        if c = '0' then none
        else
          match sign d with
          | some chomping => some (chomping, digit c, 2)
          | none => some (.clip, digit c, 1)
      else some (.clip, 0, 0)
  | [c] =>
    if c = '+' then some (.keep, 0, 1)
    else if c = '-' then some (.strip, 0, 1)
    else if c = '0' then none
    else if c.isDigit then some (.clip, digit c, 1)
    else some (.clip, 0, 0)
  | [] => some (.clip, 0, 0)

/-- Reads a block text from its mark on, inside a block indented by `outer`. -/
def block? (isLiteral : Bool) (outer : Int) (cursor : Cursor) : Option Scanned := do
  let cursor := cursor.skip 1
  let (chomping, increment, signs) ← blockHeader cursor.rest
  let cursor ← (cursor.skip signs).finishLine?
  let given : Nat := if increment = 0 then 0 else (max outer 0).toNat + increment
  let margin ← marginFrom given [] 0 cursor.mark cursor.rest
  let indent := if given = 0 then max margin.deepest (max (outer + 1) 1).toNat else given
  let (text, lineBreak, breaks, cursor) ←
    blockLines isLiteral indent [] [] margin.breaks false margin.cursor
      (margin.cursor.rest.length + 1)
  let tail := match chomping with
    | .strip => []
    | .clip => lineBreak
    | .keep => lineBreak ++ breaks
  return ⟨text ++ tail, cursor, true⟩

end Colorization.Yaml
