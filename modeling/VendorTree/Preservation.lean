import VendorTree.Path
import VendorTree.Text.Lower

/-!
# Legal files

Files that are likely to carry legal significance are kept although a policy finds them superfluous.
They are known by their base name in small letters: it starts like the name of a licence, or it
contains a word of a legal declaration.
-/

namespace VendorTree

/-- A list of characters occurs in another one without a gap. -/
def occursIn (pattern : List Char) : List Char → Bool
  | [] => pattern.isEmpty
  | c :: cs => pattern.isPrefixOf (c :: cs) || occursIn pattern cs

/-- Which base names are kept: the starts and the inner parts that mark them, in small letters. -/
structure PreservationRule where
  starts : List String
  parts : List String

namespace PreservationRule

/-- The rule with the given patterns, whatever case they are written in. -/
def ofPatterns (starts parts : List String) : PreservationRule :=
  ⟨starts.map Text.lower, parts.map Text.lower⟩

/-- The usual starts of the names of licence files. -/
def licenceStarts : List String :=
  ["license", "licence", "copying", "unlicense", "copyright", "copyleft"]

/-- The usual parts of the names of legal declarations. -/
def legalParts : List String :=
  ["authors", "contributors", "legal", "notice", "disclaimer", "patent", "third-party",
    "thirdparty"]

def standard : PreservationRule := ofPatterns licenceStarts legalParts

/-- The file is kept. Only the base name of the path counts. -/
def keeps (rule : PreservationRule) (file : String) : Bool :=
  let base := Text.lowerChars (Path.ofString file).name.toList
  (rule.starts.any fun s => s.toList.isPrefixOf base) ||
    rule.parts.any fun s => occursIn s.toList base

end PreservationRule

end VendorTree
