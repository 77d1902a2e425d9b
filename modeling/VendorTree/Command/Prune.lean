import VendorTree.Command.Basic

/-!
# Pruning projects

One project directory is pruned with the policies that are asked for, or each project of a vendor
directory with those that the configuration gives it. The first failure ends the command, and what
was removed before stays removed.
-/

namespace VendorTree

open Console (Table)

structure ProjectRequest where
  root : Path
  /-- The packages in use. -/
  packages : List String := []
  /-- The name of the project; an empty one counts as none. -/
  name : Option String := none
  config : Option Path := none
  /-- The policies that are asked for one by one. -/
  policies : PolicySet := .none
  everyPolicy : Bool := false
  noPolicy : Bool := false

structure VendorRequest where
  dir : Path := Path.ofString standardVendorName
  lock : Path := Path.ofString standardLockName
  config : Option Path := none

namespace ProjectRequest

def givenName? (r : ProjectRequest) : Option String := r.name.filter (· ≠ "")

def title (r : ProjectRequest) : String := r.givenName?.getD r.root.text

def chosen (r : ProjectRequest) : PolicySet := if r.everyPolicy then .all else r.policies

end ProjectRequest

/-- The table of what completed runs did, each of them with the name of its project. -/
def resultTable (results : List (String × RunResult)) : Table where
  title := "Prune Results"
  columns := [{ heading := "Project", wraps := false }, { heading := "Policies" },
    { heading := "Removed" }, { heading := "Unused pkgs" }]
  rows := results.map fun (name, result) =>
    [name, result.policies.describe, "[removed]" ++ toString result.removed.length ++ "[/]",
      match result.unused with
      | some packages => toString packages.length
      | none => "-"]

namespace Command

/-- Say why a run on a project ended early, and stop. -/
def reportRun {α : Type} (name : String) (fault : RunFault) : Command α := do
  match fault with
  | .escaped fault => throw (.fault fault)
  | .stage stage cause =>
    error (name ++ ": stage '" ++ stage.label ++ "' failed: " ++ cause.message)
  | .snapshot fault => error (name ++ ": " ++ fault.message)
  warning "Paths removed before the failure were not restored."
  throw .reported

def runOn (tools : Tools FileSystem) (verbose : Bool) (name : String) (root : Path)
    (used : List String) (policies : PolicySet) : Command RunResult := do
  match ← runAction verbose (tools.prune root used policies) with
  | .ok result => return result
  | .error fault => reportRun name fault

/-- The name under which the configuration knows a project. -/
def projectName (r : ProjectRequest) : Command String := do
  match r.givenName? with
  | some name => return name
  | none =>
    match (← get).files.realPath r.root with
    | .ok real => return real.name
    | .error fault => throw (.realPath fault)

/-- The policies to apply to a project: those that are asked for, and otherwise those that the
configuration gives it. -/
def projectPolicies (env : Environment) (r : ProjectRequest) : Command PolicySet := do
  if r.noPolicy && !r.chosen.isEmpty then
    failWith "--none cannot be combined with policy flags."
  else if r.chosen.isEmpty && !r.noPolicy then
    let config ← loadConfig env r.config
    return config.policiesFor (← projectName r)
  else return r.chosen

def pruneProject (env : Environment) (tools : Tools FileSystem) (verbose quiet : Bool)
    (r : ProjectRequest) : Command Unit := do
  let policies ← projectPolicies env r
  let result ← runOn tools verbose r.title r.root r.packages policies
  if !quiet then
    printTable (resultTable [(r.title, result)])
  success ("Removed " ++ toString result.removed.length ++ " path(s) from " ++ result.root.text)

def loadLock (path : Path) : Command Lock := do
  match (← get).files.loadLock path with
  | .ok lock => return lock
  | .error fault => reportLoad .lock "" fault

/-- Prune the projects of a vendor directory in order. A project without a directory is passed
over. -/
def pruneLocked (tools : Tools FileSystem) (verbose : Bool) (config : Config) (dir : Path) :
    List LockedProject → Command (List (String × RunResult))
  | [] => pure []
  | p :: rest => do
    let root := dir.join p.project
    if ← query fun fs => fs.isDirectory root then
      let result ← runOn tools verbose p.project root p.packages (config.policiesFor p.project)
      return (p.project, result) :: (← pruneLocked tools verbose config dir rest)
    else
      warning ("Skipping " ++ p.project ++ ": " ++ root.text ++ " does not exist")
      pruneLocked tools verbose config dir rest

/-- Prune the projects of a vendor directory that a lock document names. -/
def pruneVendor (env : Environment) (tools : Tools FileSystem) (verbose quiet : Bool)
    (r : VendorRequest) : Command Unit := do
  -- both documents are read before anything is asked about the directory
  let lock ← loadLock r.lock
  let config ← loadConfig env r.config
  if !(← query fun fs => fs.isDirectory r.dir) then
    failWith ("Vendor directory not found: " ++ r.dir.text)
  if lock.projects = [] then
    information "No projects in lock file."
  else
    let results ← pruneLocked tools verbose config r.dir lock.projects
    if !quiet && results ≠ [] then
      printTable (resultTable results)
    let total := (results.map fun (_, result) => result.removed.length).foldr (· + ·) 0
    success ("Pruned " ++ toString results.length ++ " project(s), removed " ++ toString total ++
      " path(s).")

end Command

end VendorTree
