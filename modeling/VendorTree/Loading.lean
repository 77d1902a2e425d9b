import VendorTree.Config.Schema
import VendorTree.Location
import VendorTree.Lock
import VendorTree.Report
import VendorTree.Toml.Reader

/-!
# Loading documents

A document is found, read, taken apart and checked, and each of these steps has its own way to fail.
-/

namespace VendorTree

inductive DocumentKind
  | config
  | lock
  deriving DecidableEq

/-- The name of the model that a document is checked against. -/
def DocumentKind.model : DocumentKind → String
  | .config => "Config"
  | .lock => "Lock"

/-- Why a document was not loaded. -/
inductive LoadFault
  | absent (path : Path)
  /-- What is at the path cannot be read. -/
  | unreadable (failure : CallFailure)
  | malformed (reason : Toml.Malformation)
  /-- The document is not one of its kind. -/
  | invalid (issues : List Issue)
  /-- The contents are no text. -/
  | notText
  /-- A whole number in the document is too long to be converted. -/
  | outsized
  /-- The values of the document lie too deep in each other. -/
  | tooDeep
  /-- It is not known where the user's configuration lies. -/
  | homeless
  /-- It cannot be told whether something is at the path. -/
  | fault (fault : Fault)

namespace LoadFault

/-- The message for a document of some kind that was not loaded. Some faults have none. -/
def message? (kind : DocumentKind) : LoadFault → Option String
  | .absent path => some (match kind with
    | .config => "Config not found: " ++ path.text
    | .lock => "Lock file not found: " ++ path.text)
  | .unreadable failure => some (match kind with
    | .config => "Failed to read config: " ++ failure.message
    | .lock => "Failed to read lock file: " ++ failure.message)
  | .malformed _ => some "Invalid TOML syntax"
  | .invalid _ => some (match kind with
    | .config => "Invalid config content"
    | .lock => "Invalid lock content")
  | .notText | .outsized | .tooDeep | .homeless | .fault _ => none

/-- What there is to say about a fault beyond its message. -/
def details? (kind : DocumentKind) : LoadFault → Option String
  | .malformed reason => some reason.message
  | .invalid issues => some (reportText kind.model issues)
  | _ => none

def fullMessage? (kind : DocumentKind) (fault : LoadFault) : Option String :=
  (fault.message? kind).map fun message => match fault.details? kind with
    | some details => message ++ ": " ++ details
    | none => message

end LoadFault

/-- The value that a text describes, by a schema. -/
def decodeDocument {α : Type} (schema : Data → Checked α) (contents : ByteArray) :
    Except LoadFault α :=
  match String.fromUTF8? contents with
  | none => .error .notText
  | some text =>
    match Toml.readDocument text with
    | .error (.malformed reason) => .error (.malformed reason)
    | .error .outsized => .error .outsized
    | .error .tooDeep => .error .tooDeep
    | .ok data =>
      match schema data with
      | .error issues => .error (.invalid issues)
      | .ok a => .ok a

namespace FileSystem

/-- The value that the document at a path describes, by a schema. -/
def load {α : Type} (fs : FileSystem) (schema : Data → Checked α) (path : Path) :
    Except LoadFault α :=
  match fs.existsAt path with
  | .error fault => .error (.fault fault)
  | .ok false => .error (.absent path)
  | .ok true =>
    match fs.read path with
    | .error (.call failure) => .error (.unreadable failure)
    | .error .unusable => .error (.fault .unusable)
    | .ok contents => decodeDocument schema contents

def loadConfig (fs : FileSystem) (path : Path) : Except LoadFault Config :=
  fs.load Config.ofData path

def loadLock (fs : FileSystem) (path : Path) : Except LoadFault Lock := fs.load Lock.ofData path

/-- The configuration to use: the one at the given path, else the one that is found, else the one
where nothing is said. -/
def resolveConfig (fs : FileSystem) (env : Environment) (path projectDir : Option Path) :
    Except LoadFault Config :=
  match path with
  | some path => fs.loadConfig path
  | none =>
    match fs.findConfig env projectDir with
    | .error (.fault fault) => .error (.fault fault)
    | .error .homeless => .error .homeless
    | .ok none => .ok Config.standard
    | .ok (some found) => fs.loadConfig found

end FileSystem

end VendorTree
