import VendorTree.Fault

/-!
# Stages

The parts of a run, which name the place of a failure.
-/

namespace VendorTree

/-- A part of a run. -/
inductive Stage
  | nestedVendor
  | unusedPackages
  | nonGo
  | goTests
  | emptyDirs
  deriving DecidableEq, Repr

namespace Stage

def all : List Stage := [.nestedVendor, .unusedPackages, .nonGo, .goTests, .emptyDirs]

def label : Stage → String
  | .nestedVendor => "nested_vendor_dirs"
  | .unusedPackages => "unused_packages"
  | .nonGo => "non_go_files"
  | .goTests => "go_tests"
  | .emptyDirs => "empty_dirs"

/-- What a failure in the stage means. -/
def description : Stage → String
  | .nestedVendor => "failed to prune nested vendor directories"
  | .unusedPackages => "failed to prune unused packages"
  | .nonGo => "failed to prune non-Go files"
  | .goTests => "failed to prune Go test files"
  | .emptyDirs => "could not delete empty dirs"

def ofLabel? (s : String) : Option Stage := all.find? fun stage => stage.label = s

def failureMessage (stage : Stage) (cause : String) : String :=
  stage.description ++ ": " ++ cause

end Stage

end VendorTree
