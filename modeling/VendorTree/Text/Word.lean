import VendorTree.Text.Lower
import VendorTree.Text.WordTable

/-!
# Words and digits

The characters that words are made of, and the values of decimal digits in any script.
-/

namespace VendorTree.Text

/-- A letter, a digit or another numeral, or an underscore. -/
def isWordChar (c : Char) : Bool := c.isAlphanum || c = '_' || inRanges wordRanges c

/-- The value of a decimal digit. -/
def decimalValue? (c : Char) : Option Nat :=
  if c.isDigit then some (c.toNat - 48)
  else (decimalRanges.find? fun r => r.1 ≤ c.toNat && c.toNat ≤ r.2).map fun r =>
    (c.toNat - r.1) % 10

end VendorTree.Text
