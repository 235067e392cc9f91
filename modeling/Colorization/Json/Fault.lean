/-! What can be wrong with a JSON text, and where. -/
namespace Colorization.Json

inductive Cause where
  | endOfValue | endOfList | endOfObject | endOfText
  | expectedValue | expectedWord | expectedColon | expectedCommaOrBracket | expectedCommaOrBrace
  | keyNotText | trailingComma | trailingText
  | invalidNumber | numberOutOfRange
  | invalidEscape | unfinishedEscape | loneSurrogate | controlCharacter
  | tooDeep
deriving DecidableEq

def Cause.message : Cause → String
  | .endOfValue => "EOF while parsing a value"
  | .endOfList => "EOF while parsing a list"
  | .endOfObject => "EOF while parsing an object"
  | .endOfText => "EOF while parsing a string"
  | .expectedValue => "expected value"
  | .expectedWord => "expected ident"
  | .expectedColon => "expected `:`"
  | .expectedCommaOrBracket => "expected `,` or `]`"
  | .expectedCommaOrBrace => "expected `,` or `\x7d`"
  | .keyNotText => "key must be a string"
  | .trailingComma => "trailing comma"
  | .trailingText => "trailing characters"
  | .invalidNumber => "invalid number"
  | .numberOutOfRange => "number out of range"
  | .invalidEscape => "invalid escape"
  | .unfinishedEscape => "unexpected end of hex escape"
  | .loneSurrogate => "lone leading surrogate in hex escape"
  | .controlCharacter => "control character (\\u0000-\\u001F) found while parsing a string"
  | .tooDeep => "recursion limit exceeded"

def byteCount (cs : List Char) : Nat := cs.foldl (fun sum c => sum + c.utf8Size) 0

/-- A fault lies before the last `left` bytes of the text. -/
structure Fault where
  cause : Cause
  left : Nat
deriving DecidableEq

/-- The fault at the first byte of `rest`, that byte included, or at the end. -/
def Fault.at (cause : Cause) (rest : List Char) : Fault := ⟨cause, byteCount rest - 1⟩

/-- The fault after everything before `rest`. -/
def Fault.before (cause : Cause) (rest : List Char) : Fault := ⟨cause, byteCount rest⟩

/-- A line number from one and the count of bytes since the last line break. -/
structure Place where
  line : Nat
  column : Nat
deriving DecidableEq

def Place.advance (place : Place) (byte : UInt8) : Place :=
  if byte = 10 then ⟨place.line + 1, 0⟩ else ⟨place.line, place.column + 1⟩

structure ReadError where
  cause : Cause
  place : Place
deriving DecidableEq

def Fault.locate (text : String) (fault : Fault) : ReadError :=
  let bytes := text.toUTF8.data.toList
  ⟨fault.cause, (bytes.take (bytes.length - fault.left)).foldl Place.advance ⟨1, 0⟩⟩

def ReadError.message (error : ReadError) : String :=
  s!"{error.cause.message} at line {error.place.line} column {error.place.column}"

end Colorization.Json
