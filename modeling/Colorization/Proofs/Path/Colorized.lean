import Colorization.Proofs.Fixtures.Extension
import Colorization.Proofs.Path.Directory

/-! The default output of a file: a name beside the file, made of the stem of the file's name, or
a name behind the path if that ends in none. -/
namespace Colorization.Path

section Parent

variable {path parent : Path} {component last : Component} {stop stop' : Nat}
  {before : List (Component × Nat)}

end Parent

end Colorization.Path
