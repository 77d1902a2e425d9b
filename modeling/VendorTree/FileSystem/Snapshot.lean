import VendorTree.Engine
import VendorTree.FileSystem.Removal

/-!
# Listing a directory of a file system

A listing visits the directory and the real directories below it, each before those that lie in it
and neighbours in the order of their names, and notes the entries of each. Links are noted and never
followed; one that leads to a directory is reported.
-/

namespace VendorTree

/-- The order of keys in which a directory precedes what lies in it, and neighbours are ordered by
their names. -/
def keyBefore : Key → Key → Bool
  | [], _ => true
  | _ :: _, [] => false
  | a :: as, b :: bs => if a = b then keyBefore as bs else a < b

namespace Store

/-- The keys of the directories strictly below a key, in the order of a visit. -/
def directoriesBelow (s : Store) (k : Key) : List Key :=
  ((s.entries.filter fun e => e.2 = .directory && Key.isBelow e.1 k).map Prod.fst).mergeSort
    keyBefore

end Store

def sortEntries (entries : List (String × Node)) : List (String × Node) :=
  entries.mergeSort fun a b => a.1 ≤ b.1

/-- The names of the entries of one directory, by kind. -/
structure DirectoryView where
  dirs : List String
  files : List String
  /-- Links that lead to a directory. -/
  directoryLinks : List String
  otherLinks : List String

namespace FileSystem

/-- The entry at a path counts as a directory: it is one, or it is a link that leads to one. -/
def leadsToDirectory (fs : FileSystem) (p : Path) : Bool :=
  match fs.isDirectory p with
  | .ok answer => answer
  | .error _ => false

/-- The entry at a path is seen to be a link. Under a path that is too long for a call none is. -/
def seesLink (fs : FileSystem) (p : Path) : Bool :=
  match fs.isLink p with
  | .ok answer => answer
  | .error _ => false

/-- The names that lead from a directory to those below it, in the order of a visit. -/
def namesBelow (fs : FileSystem) (key : Option Key) : List (List String) :=
  key.toList.flatMap fun k => (fs.store.directoriesBelow k).map fun below => below.drop k.length

/-- What the directory at a path holds. A link that is not seen to be one counts as a file. -/
def viewDirectory (fs : FileSystem) (p : Path) : Except Fault DirectoryView := do
  let entries := sortEntries (fs.entriesIn (← fs.openDirectory p))
  let names (test : String × Node → Bool) := (entries.filter test).map Prod.fst
  let links (toDirectory : Bool) := names fun
    | (name, .link _) =>
      fs.seesLink (p.join name) && fs.leadsToDirectory (p.join name) == toDirectory
    | _ => false
  return {
    dirs := names fun (_, node) => node = .directory
    files := names fun
      | (_, .file _) => true
      | (name, .link _) => !fs.seesLink (p.join name)
      | _ => false
    directoryLinks := links true
    otherLinks := links false }

end FileSystem

/-- A fault that stops a listing. -/
def RunFault.inSnapshot : Fault → RunFault
  | .call failure => .snapshot (.unreadable failure)
  | .unusable => .escaped .unusable

/-- The text of an entry relative to the root of the listing. -/
def entryText (names : List String) : String := "/".intercalate names

def noteLinks (root : Path) : List String → Action RunFault FileSystem Unit
  | [] => pure ()
  | entry :: rest => do
    Action.note .snapshot (.linkNotFollowed entry root)
    noteLinks root rest

/-- The entries of the directories with the given names below the root, visited in order. -/
def visitAll (root : Path) : List (List String) → Action RunFault FileSystem Listing
  | [] => pure { root }
  | names :: rest => do
    let view ← Action.mapError RunFault.inSnapshot
      (Action.query (·.viewDirectory (root.join (entryText names))))
    let texts (ns : List String) := ns.map fun n => entryText (names ++ [n])
    noteLinks root (texts view.directoryLinks)
    let l ← visitAll root rest
    return {
      root
      dirs := texts view.dirs ++ l.dirs
      files := texts view.files ++ l.files
      links := texts view.directoryLinks ++ texts view.otherLinks ++ l.links }

def diskSnapshot (path : Path) : Action RunFault FileSystem Listing := do
  let root ← Action.mapError .escaped (Action.query (·.absolute path))
  if ← Action.mapError .escaped (Action.query (·.isDirectory root)) then
    let key ← Action.mapError RunFault.inSnapshot (Action.query (·.openDirectory root))
    let below ← Action.query fun fs => .ok (fs.namesBelow key)
    let l ← visitAll root ([] :: below)
    Action.note .snapshot (.listed root l.dirs.length l.files.length l.links.length)
    return l
  else
    Action.fail (.snapshot (.notDirectory root))

/-- The tools of a run on a file system. The removers fail with the given faults on the paths with
the given texts, and nothing but the rule is a matter of choice otherwise. -/
def diskTools (faults : List (String × Fault)) (rule : PreservationRule) : Tools FileSystem where
  snapshot := diskSnapshot
  findVendors := Listing.nestedVendors
  remove := failingOn faults diskRemove
  removeTree := failingOn faults diskRemoveTree
  holdsEntry := diskHoldsEntry
  rule := rule

end VendorTree
