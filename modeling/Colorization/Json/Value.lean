import Colorization.Decimal.Shortest
import Colorization.Dict

/-! JSON values. Integers of 64 bits are exact; every other number is a binary
floating-point value. -/
namespace Colorization.Json

inductive Number where
  | integer (value : Int)
  | real (negative : Bool) (magnitude : Decimal.Binary64)
deriving DecidableEq

namespace Number

/-- Scientific from `1e+16` on and below `1e-5`. -/
def positional (point : Int) : Bool := -5 < point && point ≤ 16

def realText (negative : Bool) (magnitude : Decimal.Binary64) : String :=
  (if negative then "-" else "") ++ magnitude.shortest.text positional

end Number

end Json

/-- The members of an object stand in the order in which they are written; a value
that was read has them in increasing order of keys, one for each key. -/
inductive Json where
  | null
  | bool (value : Bool)
  | number (value : Json.Number)
  | text (value : String)
  | array (items : List Json)
  | object (members : List (String × Json))

end Colorization
