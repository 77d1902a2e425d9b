import VendorTree.Pruning
import VendorTree.Sweep

/-!
# Runs

A run takes one listing of a project and applies the chosen policies to it in a fixed order, then
removes the directories that are empty. All stages see the same listing. The first failure other
than a missing path ends the run; what was removed before stays removed.
-/

namespace VendorTree

variable {σ : Type}

/-- Why no listing of a directory was made. -/
inductive SnapshotFault
  | notDirectory (root : Path)
  | unreadable (failure : CallFailure)

def SnapshotFault.message : SnapshotFault → String
  | .notDirectory root => "Not a directory: " ++ root.text
  | .unreadable failure => "could not derive filesystem state: " ++ failure.message

/-- Why a run ended early. -/
inductive RunFault
  | snapshot (fault : SnapshotFault)
  | stage (stage : Stage) (cause : CallFailure)
  /-- A fault that no stage accounts for. -/
  | escaped (fault : Fault)

/-- A fault inside a stage: the stage accounts for failed calls only. -/
def RunFault.inStage (stage : Stage) : Fault → RunFault
  | .call failure => .stage stage failure
  | .unusable => .escaped .unusable

/-- What a completed run did. -/
structure RunResult where
  root : Path
  policies : PolicySet
  /-- The removed paths in the order of removal. -/
  removed : List Path
  /-- The packages found unused, unless that policy was not applied. -/
  unused : Option (List String)

/-- What a run works with. -/
structure Tools (σ : Type) where
  snapshot : Path → Action RunFault σ Listing
  findVendors : Listing → List Path
  /-- Removes a file, a link or an empty directory. -/
  remove : Remover σ
  removeTree : Remover σ
  holdsEntry : EntryTest σ
  rule : PreservationRule

/-- Work that belongs to a stage: its start is reported, and its failure names the stage. -/
def inStage {α : Type} (stage : Stage) (work : Action Fault σ α) : Action RunFault σ α := do
  Action.note .engine (.stageStarted stage)
  Action.mapError (RunFault.inStage stage) work

/-- Work that belongs to a stage and is done only if its policy is chosen. -/
def inStageIf {α : Type} (chosen : Bool) (stage : Stage) (default : α) (work : Action Fault σ α) :
    Action RunFault σ α :=
  if chosen then inStage stage work else pure default

namespace Tools

/-- The stages of a run on a listing, and the sweep that follows them whatever was chosen. -/
def pruneListing (t : Tools σ) (l : Listing) (used : List String) (policies : PolicySet) :
    Action RunFault σ RunResult := do
  Action.note .engine (.runStarted l.root policies)
  let vendors ← inStageIf policies.nestedVendor .nestedVendor []
    (removeNestedVendors .engine t.findVendors t.removeTree l)
  let (unused, unusedFiles) ← inStageIf policies.unusedPackages .unusedPackages (none, []) do
    let (unused, files) ← removeUnusedPackages .engine t.rule t.remove used l
    return (some unused, files)
  let nonGo ← inStageIf policies.nonGo .nonGo [] (removeNonGo .engine t.rule t.remove l)
  let tests ← inStageIf policies.goTests .goTests [] (removeTests .engine t.remove l)
  -- the listing is not made again: the sweep asks of each directory whether it is empty by now
  let swept ← inStage .emptyDirs (sweep .engine t.holdsEntry t.remove l.dirPaths)
  let removed := vendors ++ unusedFiles ++ nonGo ++ tests ++ swept
  Action.note .engine (.runFinished l.root removed.length)
  return { root := l.root, policies, removed, unused }

/-- A run on the directory `root`: a listing is made, and the policies are applied to it. -/
def prune (t : Tools σ) (root : Path) (used : List String) (policies : PolicySet) :
    Action RunFault σ RunResult := do
  t.pruneListing (← t.snapshot root) used policies

end Tools

end VendorTree
