import VendorTree.Text.Pieces
import VendorTree.Text.Word

/-!
# Colours

The names of colours in the descriptions of styles: those of the standard palette, shades of grey, a
number in the palette, and the three components in hexadecimal or decimal digits. What has the form
of three components and has one that cannot be converted is neither a colour nor some other text,
but an error.
-/

namespace VendorTree.Console

/-- The colours of the standard palette that have a name, the shades of grey apart. -/
def namedColours : List String :=
  ["black", "red", "green", "yellow", "blue", "magenta", "cyan", "white", "bright_black",
    "bright_red", "bright_green", "bright_yellow", "bright_blue", "bright_magenta", "bright_cyan",
    "bright_white", "navy_blue", "dark_blue", "blue3", "blue1", "dark_green", "deep_sky_blue4",
    "dodger_blue3", "dodger_blue2", "green4", "spring_green4", "turquoise4", "deep_sky_blue3",
    "dodger_blue1", "green3", "spring_green3", "dark_cyan", "light_sea_green", "deep_sky_blue2",
    "deep_sky_blue1", "spring_green2", "cyan3", "dark_turquoise", "turquoise2", "green1",
    "spring_green1", "medium_spring_green", "cyan2", "cyan1", "dark_red", "deep_pink4", "purple4",
    "purple3", "blue_violet", "orange4", "medium_purple4", "slate_blue3", "royal_blue1",
    "chartreuse4", "dark_sea_green4", "pale_turquoise4", "steel_blue", "steel_blue3",
    "cornflower_blue", "chartreuse3", "cadet_blue", "sky_blue3", "steel_blue1", "pale_green3",
    "sea_green3", "aquamarine3", "medium_turquoise", "chartreuse2", "sea_green2", "sea_green1",
    "aquamarine1", "dark_slate_gray2", "dark_magenta", "dark_violet", "purple", "light_pink4",
    "plum4", "medium_purple3", "slate_blue1", "yellow4", "wheat4", "light_slate_grey",
    "light_slate_gray", "medium_purple", "light_slate_blue", "dark_olive_green3", "dark_sea_green",
    "light_sky_blue3", "sky_blue2", "dark_sea_green3", "dark_slate_gray3", "sky_blue1",
    "chartreuse1", "light_green", "pale_green1", "dark_slate_gray1", "red3", "medium_violet_red",
    "magenta3", "dark_orange3", "indian_red", "hot_pink3", "medium_orchid3", "medium_orchid",
    "medium_purple2", "dark_goldenrod", "light_salmon3", "rosy_brown", "medium_purple1", "gold3",
    "dark_khaki", "navajo_white3", "light_steel_blue3", "light_steel_blue", "yellow3",
    "dark_sea_green2", "light_cyan3", "light_sky_blue1", "green_yellow", "dark_olive_green2",
    "dark_sea_green1", "pale_turquoise1", "deep_pink3", "magenta2", "hot_pink2", "orchid",
    "medium_orchid1", "orange3", "light_pink3", "pink3", "plum3", "violet", "light_goldenrod3",
    "tan", "misty_rose3", "thistle3", "plum2", "khaki3", "light_goldenrod2", "light_yellow3",
    "light_steel_blue1", "yellow2", "dark_olive_green1", "honeydew2", "light_cyan1", "red1",
    "deep_pink2", "deep_pink1", "magenta1", "orange_red1", "indian_red1", "hot_pink",
    "dark_orange", "salmon1", "light_coral", "pale_violet_red1", "orchid2", "orchid1", "orange1",
    "sandy_brown", "light_salmon1", "light_pink1", "pink1", "plum1", "gold1", "navajo_white1",
    "misty_rose1", "thistle1", "yellow1", "light_goldenrod1", "khaki1", "wheat1", "cornsilk1"]

/-- The shades of grey that have a name, in percent of white. -/
def greyShades : List Nat :=
  [0, 3, 7, 11, 15, 19, 23, 27, 30, 35, 37, 39, 42, 46, 50, 53, 54, 58, 62, 63, 66, 69, 70, 74, 78,
    82, 84, 85, 89, 93, 100]

def greyNames : List String :=
  greyShades.flatMap fun shade => ["grey" ++ toString shade, "gray" ++ toString shade]

/-- A colour with a component that is no number. -/
structure ComponentFault where
  colour : String
  deriving DecidableEq, Repr

/-- The greatest component of a colour, and the last number of the palette. -/
def colourByteLimit : Nat := 255

/-- What stands between the parentheses after a function name. -/
def argumentOf? (function : String) (s : List Char) : Option (List Char) :=
  let head := function.toList ++ ['(']
  if head.isPrefixOf s && s.getLast? = some ')' then some ((s.drop head.length).dropLast) else none

def isSmallHexDigit (c : Char) : Bool := c.isDigit || ('a' ≤ c && c ≤ 'f')

/-- Six hexadecimal digits after a number sign. -/
def isHexColour : List Char → Bool
  | '#' :: digits => digits.length = 6 && digits.all isSmallHexDigit
  | _ => false

def isPaletteNumber (s : List Char) : Bool :=
  match argumentOf? "color" s with
  | some digits =>
    digits ≠ [] && digits.length ≤ 3 && digits.all Char.isDigit &&
      digits.foldl (fun n c => 10 * n + (c.toNat - 48)) 0 ≤ colourByteLimit
  | none => false

/-- The number of digits that a component may have. -/
def componentDigitLimit : Nat := 4300

def component? (digits : List Char) : Option Nat :=
  if digits = [] ∨ componentDigitLimit < digits.length then none
  else some ((digits.filterMap Text.decimalValue?).foldl (fun n d => 10 * n + d) 0)

/-- Three components in decimal digits of any script, with commas between them. -/
def isDecimalColour (s : List Char) : Except ComponentFault Bool :=
  match argumentOf? "rgb" s with
  | none => .ok false
  | some inner =>
    let components := Text.pieces ',' inner
    if inner = [] ∨ inner.any (fun c => c ≠ ',' && (Text.decimalValue? c).isNone) ∨
        components.length ≠ 3 then .ok false
    else match components.mapM component? with
      | some bytes => .ok (bytes.all (· ≤ colourByteLimit))
      | none => .error ⟨String.ofList s⟩

def isColour (name : List Char) : Except ComponentFault Bool :=
  if String.ofList name ∈ "default" :: namedColours ++ greyNames || isHexColour name ||
    isPaletteNumber name then .ok true
  else isDecimalColour name

end VendorTree.Console
