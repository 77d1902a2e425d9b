import VendorTree.Text.Lower
import VendorTree.Text.WidthTable

/-!
# Columns

The number of columns that characters take on a console.
-/

namespace VendorTree.Text

/-- The number of columns of a character. -/
def width (c : Char) : Nat :=
  if inRanges widthlessRanges c then 0 else if inRanges wideRanges c then 2 else 1

end VendorTree.Text
