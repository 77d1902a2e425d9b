import VendorTree.Command.Basic
import VendorTree.FileKind

/-!
# Checking names

A table of file names that shows for each of them how it is judged. The file system is not looked
at.
-/

namespace VendorTree

open Console (Table)

/-- How the name of a file is judged. -/
structure Judgement where
  name : String
  extension : String
  build : Bool
  preserved : Bool
  /-- The policy on files that no build reads removes it. -/
  nonGo : Bool
  /-- The policy on tests removes it. -/
  goTests : Bool
  deriving DecidableEq, Repr

namespace Judgement

def ofName (name : String) : Judgement :=
  let build := isBuildFile name
  let preserved := PreservationRule.standard.keeps name
  { name, extension := VendorTree.extension name, build, preserved
    nonGo := !build && !preserved
    goTests := isTestFile name }

def yesNo (b : Bool) : String := if b then "yes" else "[muted]no[/]"

/-- What becomes of a file, in a table. -/
def verdict (removed : Bool) : String := if removed then "[removed]remove[/]" else "[kept]keep[/]"

def row (j : Judgement) : List String :=
  [j.name, if j.extension = "" then "-" else j.extension, yesNo j.build, yesNo j.preserved,
    verdict j.nonGo, verdict j.goTests]

end Judgement

def judgementTable (names : List String) : Table where
  title := "File Classification"
  columns := [{ heading := "Name", wraps := false }, { heading := "Ext" }, { heading := "Build" },
    { heading := "Preserved" }, { heading := "non-go" }, { heading := "go-tests" }]
  rows := names.map fun name => (Judgement.ofName name).row

/-- Show how names are judged. -/
def Command.checkNames (names : List String) : Command Unit := printTable (judgementTable names)

end VendorTree
