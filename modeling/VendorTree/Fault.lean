import VendorTree.Text.Quoted

/-!
# Failures of file system calls

A call on the file system fails with one of the system's error codes, and the failure names the
paths that were passed to the call. A text that holds a NUL character cannot be passed to a call at
all, which is a fault of its own and never one of the system's errors.
-/

namespace VendorTree

/-- The error codes of file system calls, and that of a search for a free name. -/
inductive ErrorCode
  | notPermitted
  | notFound
  | inputOutput
  | accessDenied
  | busy
  | exists
  | notDirectory
  | isDirectory
  | invalidArgument
  | readOnly
  | nameTooLong
  | notEmpty
  | tooManyLinks
  /-- Every name that was drawn for a new file is taken. -/
  | namesTaken
  deriving DecidableEq, Repr

namespace ErrorCode

def number : ErrorCode → Nat
  | .notPermitted => 1
  | .notFound => 2
  | .inputOutput => 5
  | .accessDenied => 13
  | .busy => 16
  | .exists => 17
  | .notDirectory => 20
  | .isDirectory => 21
  | .invalidArgument => 22
  | .readOnly => 30
  | .nameTooLong => 36
  | .notEmpty => 39
  | .tooManyLinks => 40
  | .namesTaken => 17

def text : ErrorCode → String
  | .notPermitted => "Operation not permitted"
  | .notFound => "No such file or directory"
  | .inputOutput => "Input/output error"
  | .accessDenied => "Permission denied"
  | .busy => "Device or resource busy"
  | .exists => "File exists"
  | .notDirectory => "Not a directory"
  | .isDirectory => "Is a directory"
  | .invalidArgument => "Invalid argument"
  | .readOnly => "Read-only file system"
  | .nameTooLong => "File name too long"
  | .notEmpty => "Directory not empty"
  | .tooManyLinks => "Too many levels of symbolic links"
  | .namesTaken => "No usable temporary file name found"

end ErrorCode

/-- A failed call: its error code and the paths it was given. -/
structure CallFailure where
  code : ErrorCode
  paths : List String
  deriving DecidableEq, Repr

namespace CallFailure

/-- The message of a failed call: number and wording of the code, then the quoted paths. -/
def message (f : CallFailure) : String :=
  let head := "[Errno " ++ toString f.code.number ++ "] " ++ f.code.text
  if f.paths.isEmpty then head
  else head ++ ": " ++ " -> ".intercalate (f.paths.map Text.quoted)

/-- The path that the call was about did not exist. -/
def isMissing (f : CallFailure) : Bool := f.code = .notFound

end CallFailure

/-- Why an operation on the file system did not go through. -/
inductive Fault
  | call (failure : CallFailure)
  /-- The text of the path cannot be passed to the system. -/
  | unusable
  deriving DecidableEq, Repr

/-- The fault is that the path did not exist. -/
def Fault.isMissing : Fault → Bool
  | .call f => f.isMissing
  | .unusable => false

/-- The fault is that there is something at the path already. -/
def Fault.isTaken : Fault → Bool
  | .call f => f.code = .exists
  | .unusable => false

end VendorTree
