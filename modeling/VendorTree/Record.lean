import VendorTree.Path
import VendorTree.Policy
import VendorTree.Stage

/-!
# Log records

What a run reports while it works. A record says which part of the program it comes from and what
happened; its level and its wording follow from what happened.
-/

namespace VendorTree

inductive Level
  | debug
  | info
  | warning
  deriving DecidableEq, Repr

def Level.label : Level → String
  | .debug => "DEBUG"
  | .info => "INFO"
  | .warning => "WARNING"

inductive Source
  | snapshot
  | engine
  | vendor
  | packages
  | filters
  | cleanup
  | remover
  deriving DecidableEq, Repr

def Source.label : Source → String
  | .snapshot => "vendorprune.prune.snapshot"
  | .engine => "vendorprune.prune.engine"
  | .vendor => "vendorprune.prune.vendor"
  | .packages => "vendorprune.prune.packages"
  | .filters => "vendorprune.prune.filters"
  | .cleanup => "vendorprune.prune.cleanup"
  | .remover => "vendorprune.prune.remover"

/-- What can be reported. -/
inductive Event
  /-- A link to a directory was recorded and not followed. -/
  | linkNotFollowed (entry : String) (root : Path)
  /-- A listing with these numbers of entries was made. -/
  | listed (root : Path) (dirs files links : Nat)
  | runStarted (root : Path) (policies : PolicySet)
  | stageStarted (stage : Stage)
  /-- So many nested vendor trees are to be removed. -/
  | vendorsPlanned (count : Nat) (root : Path)
  /-- So many files of so many unused packages are to be removed. -/
  | unusedPlanned (files packages : Nat) (root : Path)
  /-- So many files that no build reads are to be removed. -/
  | nonGoPlanned (count : Nat) (root : Path)
  /-- So many test files are to be removed. -/
  | testsPlanned (count : Nat) (root : Path)
  | removed (path : Path)
  /-- A path to be removed did not exist. -/
  | alreadyGone (path : Path)
  | emptyDirRemoved (path : Path)
  /-- A run ended after so many removals. -/
  | runFinished (root : Path) (count : Nat)

namespace Event

def level : Event → Level
  | .linkNotFollowed .. => .warning
  | .runStarted .. | .vendorsPlanned .. | .unusedPlanned .. | .nonGoPlanned .. | .testsPlanned ..
  | .runFinished .. => .info
  | .listed .. | .stageStarted .. | .removed .. | .alreadyGone .. | .emptyDirRemoved .. => .debug

def text : Event → String
  | .linkNotFollowed entry root =>
    "Not following symlinked directory " ++ entry ++ " in " ++ root.text
  | .listed root dirs files links =>
    "Snapshot of " ++ root.text ++ ": " ++ toString dirs ++ " dirs, " ++ toString files ++
      " files, " ++ toString links ++ " links"
  | .runStarted root policies => "Pruning " ++ root.text ++ " (" ++ policies.describe ++ ")"
  | .stageStarted stage => "Starting stage " ++ stage.label
  | .vendorsPlanned count root =>
    "Pruning " ++ toString count ++ " nested vendor dir(s) in " ++ root.text
  | .unusedPlanned files packages root =>
    "Pruning " ++ toString files ++ " file(s) from " ++ toString packages ++
      " unused package(s) in " ++ root.text
  | .nonGoPlanned count root =>
    "Pruning " ++ toString count ++ " non-Go file(s) in " ++ root.text
  | .testsPlanned count root =>
    "Pruning " ++ toString count ++ " Go test file(s) in " ++ root.text
  | .removed path => "Removed " ++ path.text
  | .alreadyGone path => "Already gone: " ++ path.text
  | .emptyDirRemoved path => "Removed empty dir " ++ path.text
  | .runFinished root count =>
    "Pruned " ++ root.text ++ ": removed " ++ toString count ++ " path(s)"

end Event

/-- A report: where it comes from and what happened. -/
structure Record where
  source : Source
  event : Event

end VendorTree
