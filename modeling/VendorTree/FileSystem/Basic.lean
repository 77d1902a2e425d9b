import VendorTree.Fault
import VendorTree.Store.Walk

/-!
# File systems and their calls

A file system is a store, a current directory, which may have been removed, and the paths under
which no directory can be listed, together with the names that will be drawn for new files.
Each call says what it does to the store, or with which error code it is refused. A call that looks
something up returns what it finds; a call that changes something returns the changed file system.
-/

namespace VendorTree

/-- Names in the place of those that are drawn at random, where it does not matter which these
are. -/
def standInName (n : Nat) : String := "TMP" ++ String.ofList (List.replicate n '_') ++ ".tmp"

/-- A file system as a process sees it. -/
structure FileSystem where
  store : Store
  /-- The current directory, from which relative paths start. -/
  here : Position
  /-- The texts of the paths under which the listing of a directory is refused. -/
  refused : List String := []
  /-- The names that will be drawn for new files, one after the other. Which ones is up to
  chance. -/
  drawn : Nat → String := standInName

/-- The number of bytes from which on a path is too long for a call. -/
def pathLimit : Nat := 4096

def refuse {α : Type} (p : Path) (code : ErrorCode) : Except Fault α :=
  .error (.call ⟨code, [p.text]⟩)

/-- Whether the text of a path can be passed to a call. -/
def Path.checkText (p : Path) : Except Fault Unit :=
  if '\x00' ∈ p.text.toList then .error .unusable
  else if pathLimit ≤ p.text.utf8ByteSize then refuse p .nameTooLong
  else .ok ()

/-- The last step of a path; a path without names stays where it starts. -/
def Path.lastStep (p : Path) : Step := (p.names.getLast?.map Step.ofPiece).getD .stay

namespace FileSystem

def start (fs : FileSystem) (p : Path) : Position := if p.isAbsolute then ⟨[], 0⟩ else fs.here

/-! ### Looking up -/

/-- Where a path leads. A link at its end is followed if `follow` holds. -/
def locate (fs : FileSystem) (follow : Bool) (p : Path) : Except Fault Spot := do
  p.checkText
  match fs.store.walkFrom follow (fs.start p) p.steps with
  | .ok spot => .ok spot
  | .error code => refuse p code

/-- The key and the node of the entry that a path leads to. A removed directory has no key. -/
def entryAt (fs : FileSystem) (follow : Bool) (p : Path) : Except Fault (Option Key × Node) := do
  match ← fs.locate follow p with
  | .vacant .. => refuse p .notFound
  | .lost => .ok (none, .directory)
  | .entry key =>
    match fs.store.get? key with
    | some node => .ok (some key, node)
    | none => refuse p .notFound

/-- The error codes that only say that there is nothing at a path. -/
def meansAbsent (code : ErrorCode) : Bool :=
  code ∈ [ErrorCode.notFound, .notDirectory, .tooManyLinks]

/-- Whether a path leads to an entry with the given property. Where nothing can be at the path, the
answer is no. -/
def holds (fs : FileSystem) (follow : Bool) (p : Path) (test : Node → Bool) : Except Fault Bool :=
  match fs.entryAt follow p with
  | .ok (_, node) => .ok (test node)
  | .error .unusable => .ok false
  | .error (.call failure) =>
    if meansAbsent failure.code then .ok false else .error (.call failure)

def existsAt (fs : FileSystem) (p : Path) : Except Fault Bool := fs.holds true p fun _ => true

/-- A directory is at the path, or a link that leads to one. -/
def isDirectory (fs : FileSystem) (p : Path) : Except Fault Bool :=
  fs.holds true p fun node => node = .directory

/-- A file is at the path, or a link that leads to one. -/
def isFile (fs : FileSystem) (p : Path) : Except Fault Bool :=
  fs.holds true p fun | .file _ => true | _ => false

def isLink (fs : FileSystem) (p : Path) : Except Fault Bool :=
  fs.holds false p fun | .link _ => true | _ => false

/-- The current directory as a path. There is none if it was removed. -/
def currentPath (fs : FileSystem) : Except Fault Path :=
  if fs.here.lost = 0 ∧ fs.store.get? fs.here.key = some .directory then
    .ok (Path.ofString ("/" ++ "/".intercalate fs.here.key))
  else .error (.call ⟨.notFound, []⟩)

/-- The path seen from the root. -/
def absolute (fs : FileSystem) (p : Path) : Except Fault Path :=
  if p.isAbsolute then .ok p else fs.currentPath.map fun base => base.append p

/-- The key of a directory whose entries are to be listed. A removed directory has none. -/
def openDirectory (fs : FileSystem) (p : Path) : Except Fault (Option Key) :=
  if p.text ∈ fs.refused then refuse p .accessDenied
  else do
    match ← fs.entryAt true p with
    | (key, .directory) => .ok key
    | _ => refuse p .notDirectory

def entriesIn (fs : FileSystem) (key : Option Key) : List (String × Node) :=
  (key.map fs.store.children).getD []

/-- Whether the directory at a path holds an entry. Where no directory is, there is none in it. -/
def holdsEntry (fs : FileSystem) (p : Path) : Except Fault Bool :=
  match fs.openDirectory p with
  | .ok key => .ok (fs.entriesIn key ≠ [])
  | .error .unusable => .error .unusable
  | .error (.call failure) =>
    if failure.code = .notFound ∨ failure.code = .notDirectory then .ok false
    else .error (.call failure)

def read (fs : FileSystem) (p : Path) : Except Fault ByteArray := do
  match ← fs.entryAt true p with
  | (_, .file contents) => .ok contents
  | _ => refuse p .isDirectory

/-! ### Changing -/

def update (fs : FileSystem) (store : Store) : FileSystem :=
  { fs with store, here := store.keep fs.here }

/-- What the last step of a path is about: a name in a directory, which an entry may have or not, or
a directory that the path does not name. -/
inductive Target
  | named (dir : Key) (name : String)
  | above
  | same

/-- What a path is about that is to be changed. -/
def target (fs : FileSystem) (p : Path) : Except Fault Target := do
  p.checkText
  if p.names = [] then .ok .same
  else match fs.store.walkFrom true (fs.start p) p.steps.dropLast with
    | .error code => refuse p code
    | .ok spot =>
      let dir := match spot with
        | .entry key => (fs.store.get? key).map fun node => (key, node)
        | .vacant .. | .lost => none
      match spot, dir, p.lastStep with
      | .lost, _, .up => .ok .above
      | _, none, _ => refuse p .notFound
      | _, some (key, .directory), .enter name =>
        if nameLimit < name.utf8ByteSize then refuse p .nameTooLong else .ok (.named key name)
      | _, some (_, .directory), .up => .ok .above
      | _, some (_, .directory), .stay => .ok .same
      | _, some _, _ => refuse p .notDirectory

/-- Remove a file or a link. A directory is not removed. -/
def unlink (fs : FileSystem) (p : Path) : Except Fault FileSystem := do
  match ← fs.target p with
  | .named dir name =>
    match fs.store.get? (dir ++ [name]) with
    | none => refuse p .notFound
    | some .directory => refuse p .isDirectory
    | some _ => .ok (fs.update (fs.store.erase (dir ++ [name])))
  | _ => refuse p .isDirectory

/-- Remove a directory that has no entries. -/
def removeDirectory (fs : FileSystem) (p : Path) : Except Fault FileSystem := do
  match ← fs.target p with
  | .named dir name =>
    match fs.store.get? (dir ++ [name]) with
    | none => refuse p .notFound
    | some .directory =>
      if fs.store.children (dir ++ [name]) = [] then
        .ok (fs.update (fs.store.erase (dir ++ [name])))
      else refuse p .notEmpty
    | some _ => refuse p .notDirectory
  | .above => refuse p .notEmpty
  | .same => refuse p (if p.isAbsolute then .busy else .invalidArgument)

def create (fs : FileSystem) (p : Path) (node : Node) : Except Fault FileSystem := do
  match ← fs.target p with
  | .named dir name =>
    match fs.store.get? (dir ++ [name]) with
    | none => .ok (fs.update (fs.store.insert dir name node))
    | some _ => refuse p .exists
  | _ => refuse p .exists

/-- Whether a directory that could not be made is there already. -/
def unlessDirectory (fs : FileSystem) (p : Path) (fault : Fault) : Except Fault Unit := do
  if ← fs.isDirectory p then .ok () else .error fault

/-- Make a directory together with the missing ones above it, of which there may be as many as the
number says. A directory that is there already is fine. The directories made before a failure
stay. -/
def makeDirectoriesWithin (fs : FileSystem) :
    (missing : Nat) → Path → Except Fault Unit × FileSystem
  | missing, p =>
    match fs.create p .directory with
    | .ok fs' => (.ok (), fs')
    | .error .unusable => (.error .unusable, fs)
    | .error (.call failure) =>
      if failure.code ≠ .notFound then (fs.unlessDirectory p (.call failure), fs)
      else match missing with
        | 0 => (.error (.call failure), fs)
        | missing + 1 =>
          match makeDirectoriesWithin fs missing p.parent with
          | (.error fault, fs') => (.error fault, fs')
          | (.ok (), fs') =>
            match fs'.create p .directory with
            | .ok fs'' => (.ok (), fs'')
            | .error fault =>
              -- the directories above are not made twice: what is missing now stays missing
              if fault.isMissing then (.error fault, fs')
              else (fs'.unlessDirectory p fault, fs')

/-- Make a directory together with the missing ones above it. A directory that is there already is
fine. -/
def makeDirectories (fs : FileSystem) (p : Path) : Except Fault Unit × FileSystem :=
  fs.makeDirectoriesWithin p.names.length p

/-- A failed call that is about two paths names both. -/
def aboutBoth {α : Type} (p q : Path) : Except Fault α → Except Fault α
  | .error (.call failure) => .error (.call { failure with paths := [p.text, q.text] })
  | x => x

/-- Give the file or link at `source` the path `destination`, in place of a file or link that may be
there. Directories are neither moved nor replaced. -/
def rename (fs : FileSystem) (source destination : Path) : Except Fault FileSystem :=
  aboutBoth source destination do
    match ← fs.target source, ← fs.target destination with
    | .named oldDir old, .named newDir new =>
      match fs.store.get? (oldDir ++ [old]) with
      | none => refuse source .notFound
      | some .directory => refuse source .isDirectory
      | some node =>
        if fs.store.get? (newDir ++ [new]) = some .directory then refuse destination .isDirectory
        else .ok (fs.update
          (((fs.store.erase (oldDir ++ [old])).erase (newDir ++ [new])).insert newDir new node))
    | _, _ => refuse destination .busy

end FileSystem

end VendorTree
