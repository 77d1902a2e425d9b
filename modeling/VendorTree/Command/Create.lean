import VendorTree.Command.Basic
import VendorTree.Saving

/-!
# Creating a configuration

A configuration without entries for projects is written. One that is there already is replaced on
demand only.
-/

namespace VendorTree

/-- What is asked of the command that creates a configuration. -/
structure CreateRequest where
  /-- The path of the configuration, unless it is that of the current directory. -/
  output : Option Path := none
  /-- A configuration that is there is replaced. -/
  force : Bool := false
  /-- Every policy is chosen, and not only the usual one. -/
  everyPolicy : Bool := false

namespace CreateRequest

def config (r : CreateRequest) : Config :=
  if r.everyPolicy then .ofPolicies .all else .standard

end CreateRequest

namespace Command

def saveConfig (config : Config) (path : Path) : Command Path := do
  let s ← get
  let (result, files) := s.files.saveConfig config (some path)
  set { s with files }
  match result with
  | .ok saved => return saved
  | .error (.unwritten failure) => failWith (saveFailureMessage failure)
  | .error (.fault fault) => throw (.fault fault)

def createConfig (r : CreateRequest) : Command Unit := do
  let path ← match r.output with
    | some path => pure path
    | none => query fun fs => fs.projectConfig none
  if ← query fun fs => fs.existsAt path then
    if r.force then
      warning ("Overwriting existing config: " ++ path.text)
    else
      error ("Config already exists: " ++ path.text)
      information "Use --force to overwrite or specify a different path with --output."
      throw .reported
  let saved ← saveConfig r.config path
  success ("Config created: " ++ saved.text)

end Command

end VendorTree
