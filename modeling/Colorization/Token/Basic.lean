import Colorization.Dict

/-! A token is one classified span of source text: the text itself, its grammar scope
and the colour that each theme renders it in. A capture is the tokens of one file in
their order. -/
namespace Colorization

abbrev ThemeColors := Dict String

structure Token where
  content : String
  scope : String
  themeColors : ThemeColors
deriving DecidableEq

abbrev Capture := List Token

namespace ThemeColors

/-- The colours of the listed themes; an empty list keeps all. -/
def restrict (themes : List String) (colors : ThemeColors) : ThemeColors :=
  if themes.isEmpty then colors else colors.filter themes.contains

end ThemeColors

namespace Capture

def restrict (themes : List String) (capture : Capture) : Capture :=
  capture.map fun token => { token with themeColors := token.themeColors.restrict themes }

end Capture

end Colorization
