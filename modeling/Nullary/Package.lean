import Nullary.Blank

/-!
# The package

What the package says about itself: its version, and the names it hands out.
-/

namespace Nullary.Package

/-- The version of the package. -/
def version : String := "0.1.0"

/-- The names handed out, in ascending order. -/
def exported : List String := [Blank.name, "__version__"]

end Nullary.Package
