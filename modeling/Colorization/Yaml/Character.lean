/-! Classes of characters in YAML text. -/
namespace Colorization.Yaml

def isBreak (c : Char) : Bool :=
  c = '\n' || c = '\r' || c = '\x85' || c = '\u2028' || c = '\u2029'

def isBlank (c : Char) : Bool := c = ' ' || c = '\t'

/-- A blank, a line break or the null character; the end of the text counts as null. -/
def isGap (c : Char) : Bool := isBlank c || isBreak c || c = '\x00'

/-- Characters that may stand unescaped in a scalar. -/
def isPrintable (c : Char) : Bool :=
  c = '\n' || (0x20 ≤ c.toNat && c.toNat ≤ 0x7E) || (0xA0 ≤ c.toNat && c.toNat ≤ 0xD7FF) ||
    (0xE000 ≤ c.toNat && c.toNat ≤ 0xFFFD && c.toNat != 0xFEFF) || 0x10000 ≤ c.toNat

def isWordChar (c : Char) : Bool := c.isAlphanum || c = '_' || c = '-'

def isOrderMark (c : Char) : Bool := c = '\uFEFF'

/-- Characters that may stand in a YAML text. -/
def isAllowed (c : Char) : Bool :=
  c = '\t' || c = '\n' || c = '\r' || c = '\x85' || isOrderMark c || isPrintable c

/-- Every line break but the two separators of Unicode becomes a line feed. -/
def unifyBreaks : List Char → List Char
  | [] => []
  | '\r' :: '\n' :: rest => '\n' :: unifyBreaks rest
  | c :: rest => (if c = '\r' ∨ c = '\x85' then '\n' else c) :: unifyBreaks rest

/-- Whether a gap or the end comes next. -/
def gapNext (cs : List Char) : Bool := cs.head?.all isGap

end Colorization.Yaml
