import VendorTree.Text.Lower

/-!
# Blanks

The characters that separate words, and texts without the blanks around and between their words.
-/

namespace VendorTree.Text

/-- The code points of the blanks, as ranges. -/
def blankRanges : List (Nat × Nat) :=
  [(0x09, 0x0D), (0x1C, 0x20), (0x85, 0x85), (0xA0, 0xA0), (0x1680, 0x1680), (0x2000, 0x200A),
    (0x2028, 0x2029), (0x202F, 0x202F), (0x205F, 0x205F), (0x3000, 0x3000)]

/-- A character that separates words. -/
def isBlank (c : Char) : Bool := inRanges blankRanges c

/-- A text without the characters of one kind at its ends. -/
def trim (outer : Char → Bool) (s : List Char) : List Char :=
  ((s.dropWhile outer).reverse.dropWhile outer).reverse

def words : List Char → List (List Char)
  | [] => []
  | c :: cs =>
    if isBlank c then words cs
    else match cs.head?, words cs with
      | some d, word :: rest => if isBlank d then [c] :: word :: rest else (c :: word) :: rest
      | _, rest => [c] :: rest

end VendorTree.Text
