import Colorization.Path

/-! Names of the files that are written for a source file. -/
namespace Colorization

/-- The first dot of a name becomes an underscore. -/
def flattenDot : List Char → List Char
  | [] => []
  | c :: rest => if c = '.' then '_' :: rest else c :: flattenDot rest

namespace Path

/-- The name of the baseline: `example.js` has `example_js.json`. A path without a file
name lends its whole text. -/
def baselineName (fixture : Path) : String :=
  String.ofList (flattenDot (fixture.fileName?.getD fixture.text).toList) ++ ".json"

def baseline (directory fixture : Path) : Path := directory.join ⟨fixture.baselineName⟩

/-- Where one file's tokens go by default: `src/example.js` has
`src/example_colorized.json`. -/
def colorized (file : Path) : Path :=
  file.withFileName (file.fileStem?.getD "" ++ "_colorized.json")

end Path

end Colorization
