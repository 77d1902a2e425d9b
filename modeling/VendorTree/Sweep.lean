import VendorTree.Listing
import VendorTree.Removal

/-!
# Sweeping empty directories

The directories that are left without entries are removed, the deepest first, so that a directory
whose last entry is removed by the sweep is itself found empty in the same sweep. Each candidate is
asked about once, just before it is removed.
-/

namespace VendorTree

variable {σ : Type}

/-- Whether a directory holds an entry now. -/
abbrev EntryTest (σ : Type) := Path → Action Fault σ Bool

/-- `p` is swept no later than `q`: it has more parts, or as many and a text that sorts first. -/
def sweptBefore (p q : Path) : Bool :=
  p.size > q.size || (p.size = q.size && p.text ≤ q.text)

/-- The order of a sweep: each path once, the deepest first. -/
def sweepOrder (paths : List Path) : List Path := paths.eraseDups.mergeSort sweptBefore

/-- Remove those of the directories, taken in order, that hold no entry when their turn comes. -/
def sweepInOrder (source : Source) (holdsEntry : EntryTest σ) (remove : Remover σ) :
    List Path → Action Fault σ (List Path)
  | [] => pure []
  | path :: rest => do
    if ← holdsEntry path then
      sweepInOrder source holdsEntry remove rest
    else if ← Action.unlessMissing (remove path) then
      Action.note source (.emptyDirRemoved path)
      return path :: (← sweepInOrder source holdsEntry remove rest)
    else
      sweepInOrder source holdsEntry remove rest

/-- Remove those of the directories that are empty. -/
def sweep (source : Source) (holdsEntry : EntryTest σ) (remove : Remover σ) (paths : List Path) :
    Action Fault σ (List Path) :=
  sweepInOrder source holdsEntry remove (sweepOrder paths)

/-- The directories of a listing as paths. The root is none of them. -/
def Listing.dirPaths (l : Listing) : List Path := l.dirs.map l.absolute

/-- The directories that held the given files, without the protected one. -/
def parentsOf (files : List Path) (protectedDir : Option Path) : List Path :=
  (files.map Path.parent).filter fun p => some p ≠ protectedDir

end VendorTree
