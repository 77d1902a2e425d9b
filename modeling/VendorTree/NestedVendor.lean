import VendorTree.Listing

/-!
# Nested vendor trees

A directory or link named `vendor` below a project is removed as a whole, so of several that lie in
each other only the outermost is taken.
-/

namespace VendorTree

def vendorName : String := "vendor"

/-- The entries named `vendor` that lie in none of the ones taken before them. -/
def outermostVendors (taken : List Path) : List String → List String
  | [] => []
  | entry :: rest =>
    let path := Path.ofString entry
    if path.name = vendorName ∧ ¬ taken.any path.isBelow then
      entry :: outermostVendors (path :: taken) rest
    else outermostVendors taken rest

/-- The vendor trees below the root of a listing, directories before links. -/
def Listing.nestedVendors (l : Listing) : List Path :=
  (outermostVendors [] (l.dirs ++ l.links)).map l.absolute

end VendorTree
