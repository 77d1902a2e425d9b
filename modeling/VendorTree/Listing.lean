import VendorTree.Path

/-!
# Listings

What a directory held at one moment: the directories, files and symbolic links below it, as texts
relative to the directory. A listing does not change while the directory does.
-/

namespace VendorTree

/-- The entries below a directory at one moment. The root itself is not listed. -/
structure Listing where
  root : Path
  dirs : List String := []
  files : List String := []
  links : List String := []

namespace Listing

def absolute (l : Listing) (entry : String) : Path := l.root.join entry

end Listing

end VendorTree
