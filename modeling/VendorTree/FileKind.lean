import VendorTree.Listing
import VendorTree.Preservation

/-!
# Kinds of files

Which files a build may read, judged by the extension, and which files are tests, judged by the end
of the name; and the files of a listing that fall under the two policies on kinds of files.
-/

namespace VendorTree

/-- A name from its last dot on, or nothing where there is no dot. -/
def fromLastDot (name : List Char) : List Char :=
  if '.' ∈ name then '.' :: (name.reverse.takeWhile (· ≠ '.')).reverse else []

/-- The extension of the base name of a path, dot included. -/
def extension (file : String) : String :=
  String.ofList (fromLastDot (Path.ofString file).name.toList)

/-- The extensions of the files that a build may read. Small and capital letters differ. -/
def buildExtensions : List String :=
  [".go", ".c", ".cc", ".cpp", ".cxx", ".m", ".h", ".hh", ".hpp", ".hxx", ".f", ".F", ".for",
    ".f90", ".s", ".S", ".swig", ".swigcxx", ".syso"]

def isBuildFile (file : String) : Bool := extension file ∈ buildExtensions

def testEnding : String := "_test.go"

def isTestFile (file : String) : Bool := testEnding.toList.isSuffixOf file.toList

namespace Listing

/-- The files that no build reads and that no rule keeps, in the order of the listing. -/
def nonGoFiles (l : Listing) (rule : PreservationRule) : List Path :=
  (l.files.filter fun f => !isBuildFile f && !rule.keeps f).map l.absolute

/-- The test files, in the order of the listing. Legal files get no exemption. -/
def testFiles (l : Listing) : List Path := (l.files.filter isTestFile).map l.absolute

end Listing

end VendorTree
