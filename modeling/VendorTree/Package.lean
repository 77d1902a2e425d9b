import VendorTree.Listing
import VendorTree.Preservation

/-!
# Packages

Every directory of a listing is a package, named by its relative path, and the root is the package
`.`. A package is unused unless its name stands in the list of used ones, letter by letter: a
package says nothing about the ones below it.
-/

namespace VendorTree

def rootPackage : String := "."

def packageOf (file : String) : String := (Path.ofString file).parent.text

namespace Listing

/-- The names of the packages of a listing, the root first. -/
def packages (l : Listing) : List String :=
  rootPackage :: l.dirs.map fun d => (Path.ofString d).text

/-- The packages that are not used, each once. -/
def unusedPackages (l : Listing) (used : List String) : List String :=
  (l.packages.filter fun p => p ∉ used).eraseDups

/-- The files of unused packages that no rule keeps, in the order of the listing. -/
def unusedFiles (l : Listing) (unused : List String) (rule : PreservationRule) : List Path :=
  (l.files.filter fun f => !rule.keeps f && packageOf f ∈ unused).map l.absolute

end Listing

end VendorTree
