import VendorTree.Text.Blank
import VendorTree.Text.Pieces
import VendorTree.Text.Width

/-!
# Layout

How a text becomes lines on a console, whose columns are counted by the widths of characters. Tabs
become spaces. In a table, the cells of a column are as wide as the widest text in it, before tabs
are replaced; a line that is wider by then is broken between words, if its column allows that, and
what is still too wide is cut off behind an ellipsis.
-/

namespace VendorTree.Console

def columns (s : List Char) : Nat := (s.map Text.width).foldr (· + ·) 0

def tabWidth : Nat := 8

/-- A line from a column on, with spaces up to the next tab stop in place of each tab. -/
def expandTabs : (column : Nat) → List Char → List Char
  | _, [] => []
  | column, c :: cs =>
    if c = '\t' then
      let width := tabWidth - column % tabWidth
      List.replicate width ' ' ++ expandTabs (column + width) cs
    else c :: expandTabs (column + Text.width c) cs

/-! ### The width of a text -/

/-- A character that ends a line where the width of a text is measured. -/
def endsLine (c : Char) : Bool :=
  c.toNat ∈ [0x0A, 0x0B, 0x0C, 0x0D, 0x1C, 0x1D, 0x1E, 0x85, 0x2028, 0x2029]

/-- The width of the widest line of a text from a column of its first line on. -/
def measureFrom : (column : Nat) → List Char → Nat
  | column, [] => column
  | column, c :: cs =>
    if endsLine c then max column (measureFrom 0 cs) else measureFrom (column + Text.width c) cs

def measure (s : List Char) : Nat := measureFrom 0 s

/-! ### Lines that are too wide -/

/-- The beginning of a text that fits in a number of columns. A character of two columns of which
only one is left becomes a space. -/
def takeColumns : (width : Nat) → List Char → List Char
  | _, [] => []
  | width, c :: cs =>
    if Text.width c ≤ width then c :: takeColumns (width - Text.width c) cs
    else List.replicate width ' '

/-- A line with no more columns than there are, the last of which shows that something was cut
off. -/
def cutOff (width : Nat) (line : List Char) : List Char :=
  if columns line ≤ width then line else takeColumns (width - 1) line ++ ['…']

/-- A line without the blanks at its end that make it longer than the number of columns. -/
def dropExcessBlanks (width : Nat) (line : List Char) : List Char :=
  let blanks := (line.reverse.takeWhile Text.isBlank).length
  line.take (line.length - min blanks (line.length - width))

def cutAtWords : List Char → List (List Char)
  | [] => []
  | c :: cs =>
    match cs.head?, cutAtWords cs with
    | some d, part :: rest =>
      if Text.isBlank c && !Text.isBlank d then [c] :: part :: rest else (c :: part) :: rest
    | _, rest => [c] :: rest

/-- The words of a line with the blanks behind each of them. Blanks in front belong to the first
word. -/
def spacedWords (line : List Char) : List (List Char) :=
  match cutAtWords line with
  | first :: second :: rest =>
    if first.all Text.isBlank then (first ++ second) :: rest else first :: second :: rest
  | parts => parts

/-- Continue a line with words as long as they fit, blanks behind them not counted, and begin new
lines with the others. -/
def fillLines (width : Nat) : (line : List Char) → List (List Char) → List (List Char)
  | line, [] => [line]
  | line, word :: words =>
    let shown := (word.reverse.dropWhile Text.isBlank).reverse
    if line = [] ∨ columns line + columns shown ≤ width then fillLines width (line ++ word) words
    else line :: fillLines width word words

/-! ### Texts and cells -/

def trimmed (line : List Char) : String := String.ofList (Text.trim (· = ' ') line)

def textLines (s : String) : List String := (Text.pieces '\n' s.toList).map trimmed

def laidOutLines (s : String) : List String :=
  (Text.pieces '\n' s.toList).map fun line => trimmed (expandTabs 0 line)

def cellLines (wraps : Bool) (width : Nat) (s : String) : List String :=
  (Text.pieces '\n' s.toList).flatMap fun line =>
    let line := expandTabs 0 line
    let lines := if wraps then fillLines width [] (spacedWords line) else [line]
    lines.map fun line => trimmed (cutOff width (dropExcessBlanks width line))

end VendorTree.Console
