import Colorization.Yaml.Character
import Colorization.Yaml.Plain

/-! Writing YAML in block style. Each text gets the plainest style that reads back as
the same text: plain, single quoted, literal (for several lines) or double quoted. -/
namespace Colorization.Yaml

inductive Style where
  | plain | singleQuoted | doubleQuoted | literal
deriving DecidableEq

/-- Some two neighbours `a b` satisfy `first a` and `second b`. -/
def anyPair (first second : Char → Bool) : List Char → Bool
  | a :: b :: rest => first a && second b || anyPair first second (b :: rest)
  | _ => false

/-- A colon before a gap or at the end, or a number sign after a gap. -/
def innerIndicator : List Char → Bool
  | [] => false
  | [c] => c = ':'
  | c :: next :: rest =>
    c = ':' && isGap next || isGap c && next = '#' || innerIndicator (next :: rest)

def leadingIndicators : List Char :=
  ['#', ',', '[', ']', '\x7b', '\x7d', '&', '*', '!', '|', '>', '\x27', '"', '%', '@', '\x60']

def firstIndicator : List Char → Bool
  | [] => false
  | c :: rest =>
    leadingIndicators.contains c ||
      (c = '?' || c = ':' || c = '-') && (match rest with | [] => true | next :: _ => isGap next)

def documentMark (cs : List Char) : Bool :=
  ['-', '-', '-'].isPrefixOf cs || ['.', '.', '.'].isPrefixOf cs

def isSpace (c : Char) : Bool := c = ' '

def edge (cs : List Char) (test : Char → Bool) : Bool := cs.head?.any test || cs.getLast?.any test

def plainAllowed (cs : List Char) : Bool :=
  !documentMark cs && !firstIndicator cs && !innerIndicator cs && cs.all isPrintable &&
    !cs.any isBreak && !edge cs isSpace

def singleQuotedAllowed (cs : List Char) : Bool :=
  cs.all isPrintable && !anyPair isBreak isSpace cs && !anyPair isSpace isBreak cs

def literalAllowed (cs : List Char) : Bool :=
  cs.all isPrintable && !anyPair isSpace isBreak cs && !cs.getLast?.any isSpace

def quotedStyle (cs : List Char) : Style :=
  if singleQuotedAllowed cs then .singleQuoted else .doubleQuoted

def Style.choose (s : String) : Style :=
  let cs := s.toList
  if cs.contains '\n' then if literalAllowed cs then .literal else .doubleQuoted
  else if needsQuotes s then quotedStyle cs
  else if plainAllowed cs then .plain
  else quotedStyle cs

/-- Indents what follows line breaks; `fresh` says that a line has just begun. -/
def indented (indent : Nat) (written : Char → List Char) (fresh : Bool) : List Char → List Char
  | [] => []
  | c :: rest =>
    if isBreak c then c :: indented indent written true rest
    else
      (if fresh then List.replicate indent ' ' else []) ++ written c ++
        indented indent written false rest

def doubledQuote (c : Char) : List Char := if c = '\x27' then [c, c] else [c]

def singleQuoted (indent : Nat) (cs : List Char) : List Char :=
  '\x27' :: (indented indent doubledQuote false cs ++
    (if cs.getLast?.any isBreak then List.replicate indent ' ' else []) ++ ['\x27'])

def hexDigits (width n : Nat) : List Char :=
  (List.range width).map fun i =>
    (Nat.digitChar (n / Nat.pow 16 (width - 1 - i) % 16)).toUpper

def namedEscapes : List (Char × Char) :=
  [('\x00', '0'), ('\x07', 'a'), ('\x08', 'b'), ('\x09', 't'), ('\x0a', 'n'), ('\x0b', 'v'),
    ('\x0c', 'f'), ('\x0d', 'r'), ('\x1b', 'e'), ('"', '"'), ('\\', '\\'), ('\x85', 'N'),
    ('\u2028', 'L'), ('\u2029', 'P')]

def escapedChar (c : Char) : List Char :=
  if isPrintable c && !isBreak c && c != '"' && c != '\\' then [c]
  else
    match namedEscapes.find? (·.1 = c) with
    | some escape => ['\\', escape.2]
    | none =>
      if c.toNat ≤ 0xFF then ['\\', 'x'] ++ hexDigits 2 c.toNat
      else if c.toNat ≤ 0xFFFF then ['\\', 'u'] ++ hexDigits 4 c.toNat
      else ['\\', 'U'] ++ hexDigits 8 c.toNat

def doubleQuoted (cs : List Char) : List Char := '"' :: (cs.flatMap escapedChar ++ ['"'])

def indentStep : Nat := 2

/-- The header of a literal block: the indentation where the text itself begins with
blank space, and what becomes of the line breaks at its end. -/
def literalHeader (cs : List Char) : List Char :=
  (if cs.head?.any fun c => isSpace c || isBreak c then (toString indentStep).toList else []) ++
    match cs.reverse with
    | [] => ['-']
    | last :: before =>
      if !isBreak last then ['-']
      else if before.isEmpty || before.head?.any isBreak then ['+']
      else []

def literal (indent : Nat) (cs : List Char) : List Char :=
  '|' :: (literalHeader cs ++ '\n' :: indented indent (fun c => [c]) true cs)

/-- A text as the value of a key or as an item; further lines are indented. -/
def scalar (indent : Nat) (s : String) : List Char :=
  match Style.choose s with
  | .plain => s.toList
  | .singleQuoted => singleQuoted indent s.toList
  | .doubleQuoted => doubleQuoted s.toList
  | .literal => literal indent s.toList

/-- Ends the line unless the text has already ended it. -/
def endLine (cs : List Char) : List Char := if cs.getLast?.any isBreak then cs else cs ++ ['\n']

/-- What can stand under a key. -/
inductive Block where
  /-- A word that is not quoted. -/
  | word (text : String)
  | text (value : String)
  | list (items : List String)
  | entries (blocks : List (String × Block))

mutual

def Block.written (indent : Nat) : Block → List Char
  | .word text => endLine (' ' :: text.toList)
  | .text value => endLine (' ' :: scalar (indent + indentStep) value)
  | .list [] => endLine " []".toList
  | .list (first :: rest) =>
    '\n' :: (first :: rest).flatMap fun item =>
      endLine (List.replicate indent ' ' ++ "- ".toList ++ scalar (indent + indentStep) item)
  | .entries blocks => '\n' :: writtenEntries (indent + indentStep) blocks

def writtenEntries (indent : Nat) : List (String × Block) → List Char
  | [] => []
  | (key, block) :: rest =>
    List.replicate indent ' ' ++ key.toList ++ ':' :: block.written indent ++
      writtenEntries indent rest

end

def print (entries : List (String × Block)) : String := String.ofList (writtenEntries 0 entries)

end Colorization.Yaml
