import VendorTree.FileSystem.Basic
import VendorTree.Removal
import VendorTree.Sweep

/-!
# Removing from a file system

The two ways to remove a path: as one entry, or together with all that lies below it. A link is
always removed as such, and what it leads to is left alone.
-/

namespace VendorTree

namespace FileSystem

/-- Remove a file, a link or an empty directory. -/
def removePath (fs : FileSystem) (p : Path) : Except Fault FileSystem := do
  if ← fs.isDirectory p then
    if ← fs.isLink p then fs.unlink p else fs.removeDirectory p
  else fs.unlink p

/-- Remove all that lies below a directory, and then the directory itself. If the path is not one by
which a directory can be removed, its contents are gone all the same. -/
def removeContents (fs : FileSystem) (p : Path) : Except Fault Unit × FileSystem :=
  match fs.entryAt false p with
  | .error fault => (.error fault, fs)
  | .ok (key, _) =>
    let cleared := (key.map fun k => fs.update (fs.store.clear k)).getD fs
    match cleared.removeDirectory p with
    | .ok fs' => (.ok (), fs')
    | .error fault => (.error fault, cleared)

/-- A path stands for one entry and not for a tree: it is a link, or no directory. -/
def isSingle (fs : FileSystem) (p : Path) : Except Fault Bool := do
  if ← fs.isLink p then return true else return !(← fs.isDirectory p)

/-- Remove a directory with all that lies below it, or a file or a link. -/
def removeTree (fs : FileSystem) (p : Path) : Except Fault Unit × FileSystem :=
  match fs.isSingle p with
  | .error fault => (.error fault, fs)
  | .ok false => fs.removeContents p
  | .ok true =>
    match fs.unlink p with
    | .ok fs' => (.ok (), fs')
    | .error fault => (.error fault, fs)

end FileSystem

/-- Do a call that changes the file system. A refused call changes nothing. -/
def Action.change (f : FileSystem → Except Fault FileSystem) : Action Fault FileSystem Unit :=
  Action.onWorld fun fs => match f fs with
    | .ok fs' => (.ok (), fs')
    | .error fault => (.error fault, fs)

def diskRemove : Remover FileSystem := fun p => Action.change (·.removePath p)

def diskRemoveTree : Remover FileSystem := fun p => Action.onWorld (·.removeTree p)

def diskHoldsEntry : EntryTest FileSystem := fun p => Action.query (·.holdsEntry p)

end VendorTree
