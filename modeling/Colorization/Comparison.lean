import Colorization.Token.Document

/-! Comparison of two captures, token by token: what differs where, the report of it,
and whether the difference matters. Tokens past the end of the shorter capture are not
compared; a difference of length is one entry at the end. -/
namespace Colorization

inductive Aspect where
  | content | scope | theme
deriving DecidableEq

def Aspect.name : Aspect → String
  | .content => "content"
  | .scope => "scope"
  | .theme => "theme"

/-- One side of a difference. -/
inductive Observation where
  | text (value : String)
  | colors (value : ThemeColors)
  | length (value : Nat)
deriving DecidableEq

structure Difference where
  index : Nat
  aspect : Aspect
  expected : Observation
  actual : Observation
deriving DecidableEq

namespace ThemeColors

/-- The themes that one side has and the other lacks or renders differently, in
increasing order. -/
def changedThemes (expected actual : ThemeColors) : List String :=
  let differing := expected.entries.filter fun entry => actual.get? entry.1 != some entry.2
  let added := actual.keys.filter fun theme => (expected.get? theme).isNone
  (differing.map (·.1) ++ added).mergeSort

/-- A theme that only the earlier capture has is no change. -/
def hasChanged (current previous : ThemeColors) : Bool :=
  current.entries.any fun entry => previous.get? entry.1 != some entry.2

end ThemeColors

namespace Token

def differences (index : Nat) (expected actual : Token) : List Difference :=
  (if expected.content = actual.content then []
    else [⟨index, .content, .text expected.content, .text actual.content⟩]) ++
  (if expected.scope = actual.scope then []
    else [⟨index, .scope, .text expected.scope, .text actual.scope⟩]) ++
  (if (expected.themeColors.changedThemes actual.themeColors).isEmpty then []
    else [⟨index, .theme, .colors expected.themeColors, .colors actual.themeColors⟩])

/-- The differences of tokens with the same index, counted from `index`. -/
def pairDifferences (index : Nat) : List Token → List Token → List Difference
  | expected :: baseline, actual :: current =>
    differences index expected actual ++ pairDifferences (index + 1) baseline current
  | _, _ => []

end Token

/-- The differences of a capture from a baseline, in the order of their tokens. -/
structure Comparison where
  differences : List Difference
deriving DecidableEq

namespace Capture

def lengthDifference (baseline current : Capture) : List Difference :=
  if baseline.length = current.length then []
  else
    [⟨min baseline.length current.length, .content, .length baseline.length,
      .length current.length⟩]

def compare (baseline current : Capture) : Comparison :=
  ⟨Token.pairDifferences 0 baseline current ++ lengthDifference baseline current⟩

end Capture

namespace Comparison

def identical (comparison : Comparison) : Bool := comparison.differences.isEmpty

def count (comparison : Comparison) (aspect : Aspect) : Nat :=
  comparison.differences.countP fun difference => difference.aspect = aspect

def summary (comparison : Comparison) : String :=
  if comparison.identical then "no differences"
  else
    let total := comparison.differences.length
    let plural := if total = 1 then "" else "s"
    let content := comparison.count .content
    let scope := comparison.count .scope
    let theme := comparison.count .theme
    s!"{total} difference{plural} ({content} content, {scope} scope, {theme} theme)"

end Comparison

namespace Observation

def toJson : Observation → Json
  | .text value => .text value
  | .colors value => value.toJson
  | .length value => .number (.integer value)

def shown : Observation → String
  | .length value => s!"Length: {value}"
  | other => other.toJson.write .compact

end Observation

/-- The block of the report for the `number`th difference. -/
def Difference.block (number : Nat) (difference : Difference) : String :=
  s!"Difference {number} at token {difference.index}:\n" ++
  s!"  Type: {difference.aspect.name}\n" ++
  s!"  Expected: {difference.expected.shown}\n" ++
  s!"  Actual: {difference.actual.shown}\n"

def Difference.toJson (difference : Difference) : Json :=
  .object [("index", .number (.integer difference.index)), ("kind", .text difference.aspect.name),
    ("expected", difference.expected.toJson), ("actual", difference.actual.toJson)]

namespace Comparison

def report (comparison : Comparison) : String :=
  "\n".intercalate (comparison.differences.mapIdx fun n difference => difference.block (n + 1))

def toJson (comparison : Comparison) : Json :=
  .object [("identical", .bool comparison.identical),
    ("diffs", .array (comparison.differences.map Difference.toJson))]

end Comparison

/-- How much a capture differs from its baseline. -/
inductive Change where
  | identical
  /-- Scopes changed or themes were dropped; text and colours are the same. -/
  | cosmetic
  | material
deriving DecidableEq

namespace Capture

def classify (baseline current : Capture) : Change :=
  if baseline = current then .identical
  else if baseline.length ≠ current.length then .material
  else if (current.zip baseline).any fun pair =>
      pair.1.content != pair.2.content || pair.1.themeColors.hasChanged pair.2.themeColors then
    .material
  else .cosmetic

end Capture

end Colorization
