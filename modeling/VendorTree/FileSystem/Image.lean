import VendorTree.FileSystem.Basic

/-!
# Images of a directory

The entries of a file system written out and read in: as items, from which a file system is filled,
and as lines, in which the entries below a directory are shown. A line shows a directory with a
slash at its end, a link with an arrow and its target, and a file by its name alone.
-/

namespace VendorTree

/-- An entry to be put into a file system. -/
inductive Item
  | directory (path : Path)
  | file (path : Path) (contents : ByteArray)
  | link (path : Path) (target : String)

namespace FileSystem

def orUnchanged (fs : FileSystem) (x : Except Fault FileSystem) : FileSystem :=
  match x with
  | .ok fs' => fs'
  | .error _ => fs

/-- Put contents into the file that a path leads to, which is made if there is none. -/
def writeFile (fs : FileSystem) (p : Path) (contents : ByteArray) : Except Fault FileSystem := do
  match ← fs.locate true p with
  | .lost => refuse p .isDirectory
  | .vacant dir name => return fs.update (fs.store.insert dir name (.file contents))
  | .entry key =>
    match fs.store.get? key, key.getLast? with
    | some (.file _), some name =>
      return fs.update ((fs.store.erase key).insert key.dropLast name (.file contents))
    | _, _ => refuse p .isDirectory

/-- Put an item into the file system, together with the directories above it that are missing. What
cannot be put there is left out. -/
def add (fs : FileSystem) : Item → FileSystem
  | .directory path => (fs.makeDirectories path).2
  | .file path contents =>
    let fs := (fs.makeDirectories path.parent).2
    fs.orUnchanged (fs.writeFile path contents)
  | .link path target =>
    let fs := (fs.makeDirectories path.parent).2
    fs.orUnchanged (fs.create path (.link target))

def addAll (fs : FileSystem) (items : List Item) : FileSystem := items.foldl add fs

end FileSystem

/-- How an entry is shown, from its path relative to the shown directory. -/
def Node.line (path : String) : Node → String
  | .directory => path ++ "/"
  | .file _ => path
  | .link target => path ++ " -> " ++ target

/-- The entries below a key as sorted lines. -/
def Store.image (s : Store) (k : Key) : List String :=
  ((s.entries.filter fun e => Key.isBelow e.1 k).map fun e =>
    e.2.line ("/".intercalate (e.1.drop k.length))).mergeSort fun a b => a ≤ b

end VendorTree
