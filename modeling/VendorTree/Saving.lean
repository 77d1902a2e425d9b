import VendorTree.Config.Writer
import VendorTree.Location

/-!
# Saving configurations

A configuration is written into a new file beside its destination, which then takes the place of
whatever file or link is there. So the destination holds the old contents or all of the new ones.
The name of the new file is a matter of chance; one that is taken is passed over.
-/

namespace VendorTree

/-- Why a configuration was not saved. -/
inductive SaveFault
  /-- The file could not be written or put in place. -/
  | unwritten (failure : CallFailure)
  /-- A fault outside of that, in which case the new file may be left behind. -/
  | fault (fault : Fault)

def saveFailureMessage (failure : CallFailure) : String :=
  "Failed to write config: " ++ failure.message

namespace FileSystem

/-- How many names are drawn for a new file before it is given up. -/
def drawLimit : Nat := 10000

/-- Create an entry in a directory under a name that is drawn for it. Where that is taken, another
one is drawn, of so many at most. -/
def createDrawn (fs : FileSystem) (dir : Path) (node : Node) :
    (draws : Nat) → Except Fault Path × FileSystem
  | 0 => (.error (.call ⟨.namesTaken, []⟩), fs)
  | draws + 1 =>
    let path := dir.join (fs.drawn 0)
    let fs := { fs with drawn := fun n => fs.drawn (n + 1) }
    match fs.create path node with
    | .ok fs' => (.ok path, fs')
    | .error fault =>
      if fault.isTaken then createDrawn fs dir node draws else (.error fault, fs)

/-- The new file is given up after a failure, and removed if it is still there. -/
def discard (fs : FileSystem) (file : Path) : FileSystem :=
  match fs.unlink file with
  | .ok fs' => fs'
  | .error _ => fs

/-- Move the new file to `path`, in place of what is there. -/
def moveNew (fs : FileSystem) (file path : Path) : Except SaveFault Unit × FileSystem :=
  match fs.rename file path with
  | .ok fs' => (.ok (), fs')
  | .error (.call failure) => (.error (.unwritten failure), fs.discard file)
  | .error .unusable => (.error (.fault .unusable), fs)

/-- Replace what is at `path` by a file with the given contents, which is first written to a new
file in the directory `dir`. -/
def replaceFile (fs : FileSystem) (dir path : Path) (contents : ByteArray) :
    Except SaveFault Unit × FileSystem :=
  match fs.createDrawn dir (.file contents) drawLimit with
  | (.error (.call failure), fs) => (.error (.unwritten failure), fs)
  | (.error .unusable, fs) => (.error (.fault .unusable), fs)
  | (.ok file, fs) => fs.moveNew file path

/-- Save a configuration at `path`, in the project configuration of the current directory where none
is given. The directories above it are made. -/
def saveConfig (fs : FileSystem) (config : Config) (path : Option Path) :
    Except SaveFault Path × FileSystem :=
  let destination : Except Fault Path := match path with
    | some path => .ok path
    | none => fs.projectConfig none
  match destination with
  | .error fault => (.error (.fault fault), fs)
  | .ok destination =>
    match fs.makeDirectories destination.parent with
    | (.error fault, fs) => (.error (.fault fault), fs)
    | (.ok (), fs) =>
      match fs.absolute destination.parent with
      | .error (.call failure) => (.error (.unwritten failure), fs)
      | .error .unusable => (.error (.fault .unusable), fs)
      | .ok dir =>
        -- the new contents are first written beside the old ones, which one move replaces
        match fs.replaceFile dir.collapsed destination config.write.toUTF8 with
        | (.error fault, fs) => (.error fault, fs)
        | (.ok (), fs) => (.ok destination, fs)

end FileSystem

end VendorTree
