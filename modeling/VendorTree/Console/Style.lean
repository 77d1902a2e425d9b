import VendorTree.Console.Colour
import VendorTree.Text.Blank

/-!
# Names of styles

A style is described by words: attributes, which may be negated, a colour, a colour behind the text
and the target of a link. Descriptions of one style can differ in their wording, and have one name.
-/

namespace VendorTree.Console

/-- The attributes of a style in the order in which a name lists them, each with the words for
it. -/
def attributeWords : List (String × List String) :=
  [("bold", ["bold", "b"]), ("dim", ["dim", "d"]), ("italic", ["italic", "i"]),
    ("underline", ["underline", "u"]), ("blink", ["blink"]), ("blink2", ["blink2"]),
    ("reverse", ["reverse", "r"]), ("conceal", ["conceal", "c"]), ("strike", ["strike", "s"]),
    ("underline2", ["underline2", "uu"]), ("frame", ["frame"]), ("encircle", ["encircle"]),
    ("overline", ["overline", "o"])]

def attributeOf? (word : String) : Option String :=
  (attributeWords.find? fun (_, words) => word ∈ words).map Prod.fst

/-- A style as it is described so far; of two words on one matter, the later one is first. -/
structure Style where
  attributes : List (String × Bool) := []
  colour : Option String := none
  background : Option String := none
  link : Option String := none

namespace Style

/-- The style that words describe in addition to what is known. Some words describe none. -/
def ofWords (known : Style) : List (List Char) → Except ComponentFault (Option Style)
  | [] => .ok (some known)
  | word :: rest =>
    let small := String.ofList (Text.lowerChars word)
    match small, rest with
    | "on", [] | "not", [] | "link", [] => .ok none
    | "on", next :: rest => do
      if ← isColour (Text.lowerChars next) then
        ofWords { known with background := some (String.ofList (Text.lowerChars next)) } rest
      else return none
    | "not", next :: rest =>
      match attributeOf? (String.ofList next) with
      | some name => ofWords { known with attributes := (name, false) :: known.attributes } rest
      | none => .ok none
    | "link", next :: rest => ofWords { known with link := some (String.ofList next) } rest
    | small, rest =>
      match attributeOf? small with
      | some name => ofWords { known with attributes := (name, true) :: known.attributes } rest
      | none => do
        if ← isColour small.toList then ofWords { known with colour := some small } rest
        else return none

def ofText (s : List Char) : Except ComponentFault (Option Style) := ofWords {} (Text.words s)

def name (s : Style) : String :=
  let attributes := attributeWords.filterMap fun (word, _) =>
    (s.attributes.lookup word).map fun given => if given then word else "not " ++ word
  let words := attributes ++ s.colour.toList ++ (s.background.toList.map fun c => "on " ++ c) ++
    (s.link.toList.map fun target => "link " ++ target)
  if words = [] then "none" else " ".intercalate words

end Style

/-- The name of the style that a text describes. A text that describes none stands for itself,
whatever the case of its letters. -/
def styleName (s : List Char) : Except ComponentFault String :=
  (Style.ofText s).map fun
    | some style => style.name
    | none => String.ofList (Text.lowerChars (Text.trim Text.isBlank s))

end VendorTree.Console
