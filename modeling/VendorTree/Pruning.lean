import VendorTree.FileKind
import VendorTree.NestedVendor
import VendorTree.Package
import VendorTree.Removal

/-!
# The work of each policy

Each policy plans its removals from the listing alone, reports how many there are, and removes them.
-/

namespace VendorTree

variable {σ : Type}

/-- Remove the nested vendor trees that `find` takes from the listing. -/
def removeNestedVendors (source : Source) (find : Listing → List Path) (removeTree : Remover σ)
    (l : Listing) : Action Fault σ (List Path) := do
  let plan := find l
  Action.note source (.vendorsPlanned plan.length l.root)
  removeAll source removeTree plan

/-- Remove the files of the packages that are not in `used`. The answer holds these packages and
the removed paths. -/
def removeUnusedPackages (source : Source) (rule : PreservationRule) (remove : Remover σ)
    (used : List String) (l : Listing) : Action Fault σ (List String × List Path) := do
  let unused := l.unusedPackages used
  let plan := l.unusedFiles unused rule
  Action.note source (.unusedPlanned plan.length unused.length l.root)
  return (unused, ← removeAll source remove plan)

def removeNonGo (source : Source) (rule : PreservationRule) (remove : Remover σ) (l : Listing) :
    Action Fault σ (List Path) := do
  let plan := l.nonGoFiles rule
  Action.note source (.nonGoPlanned plan.length l.root)
  removeAll source remove plan

def removeTests (source : Source) (remove : Remover σ) (l : Listing) :
    Action Fault σ (List Path) := do
  let plan := l.testFiles
  Action.note source (.testsPlanned plan.length l.root)
  removeAll source remove plan

end VendorTree
