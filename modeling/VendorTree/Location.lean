import VendorTree.FileSystem.Basic

/-!
# Where configurations lie

A configuration lies in the project directory or, for all projects of a user, in the user's
configuration directory. The one in the project directory is preferred.
-/

namespace VendorTree

/-- The settings of the process that decide where the user's files lie. -/
structure Environment where
  home : String
  /-- The directory for configurations, unless the usual one is meant. -/
  configHome : Option String := none

def applicationName : String := "vendorprune"

def projectConfigName : String := "vendorprune.toml"

def userConfigName : String := "config.toml"

def standardLockName : String := "Gopkg.lock"

def standardVendorName : String := "vendor"

namespace Environment

/-- The home directory as a path. A text that starts with a tilde stands for a home directory that
is not known. -/
def homePath? (env : Environment) : Option Path :=
  let trimmed := (env.home.toList.reverse.dropWhile (· = '/')).reverse
  if trimmed.head? = some '~' then none
  else some (Path.ofString (if trimmed = [] then "/" else String.ofList trimmed))

/-- The directory for configurations that is set, if it is not empty. -/
def configHome? (env : Environment) : Option String := env.configHome.filter (· ≠ "")

def configDir? (env : Environment) : Option Path :=
  match env.configHome? with
  | some base => some ((Path.ofString base).join applicationName)
  | none => env.homePath?.map fun home => (home.join ".config").join applicationName

def userConfig? (env : Environment) : Option Path :=
  env.configDir?.map fun dir => dir.join userConfigName

end Environment

/-- Why a configuration was not looked for. -/
inductive SearchFault
  /-- It is not known where the user's configuration lies. -/
  | homeless
  | fault (fault : Fault)

namespace FileSystem

/-- The configuration in a project directory, or in the current one where none is given. -/
def projectConfig (fs : FileSystem) (projectDir : Option Path) : Except Fault Path := do
  let dir ← match projectDir with
    | some dir => pure dir
    | none => fs.currentPath
  return dir.join projectConfigName

/-- The first of some paths that leads to a file. -/
def firstFile (fs : FileSystem) : List Path → Except Fault (Option Path)
  | [] => .ok none
  | p :: rest => do if ← fs.isFile p then return some p else fs.firstFile rest

/-- The configuration to use: the one in the project directory if it is a file, else the user's if
that is one. -/
def findConfig (fs : FileSystem) (env : Environment) (projectDir : Option Path) :
    Except SearchFault (Option Path) := do
  let candidate ← (fs.projectConfig projectDir).mapError .fault
  match env.userConfig? with
  | none => throw .homeless
  | some userConfig => (fs.firstFile [candidate, userConfig]).mapError .fault

end FileSystem

end VendorTree
