import VendorTree.Repeats
import VendorTree.Schema
import VendorTree.Text.Quoted

/-!
# Lock documents

What a resolver has settled on: the vendored projects, and of each the packages that are used. A
project occurs once, and no package has an empty name. Keys that are not known are passed over.
-/

namespace VendorTree

/-- A project that a lock document names. -/
structure LockedProject where
  name : NonemptyText
  version : Option String
  revision : Option String
  /-- The used packages; `.` is the one at the root of the project. -/
  packages : List String
  packages_nonempty : "" ∉ packages
  deriving DecidableEq

namespace LockedProject

def project (p : LockedProject) : String := p.name.val

abbrev Packages := { names : List String // "" ∉ names }

/-- The list of names that a value lists, if no name in it is empty. -/
def checkPackages (found : Data) (names : List String) : Checked Packages :=
  if h : "" ∈ names then .reject (.value "Package paths cannot be empty") found
  else .ok ⟨names, h⟩

def packagesOfData (d : Data) : Checked Packages :=
  (Data.toListOf Data.toText d).andThen (checkPackages d)

def ofData : Data → Checked LockedProject
  | .table fields =>
    (fun name version revision (packages : Packages) =>
      (⟨name, version, revision, packages.val, packages.property⟩ : LockedProject))
      <$> TableFields.checkName fields
      <*> TableFields.checkOr fields ["version"] none Data.toOptionalText
      <*> TableFields.checkOr fields ["revision"] none Data.toOptionalText
      <*> TableFields.checkOr fields ["packages"] ⟨[], by simp⟩ packagesOfData
  | d => .reject (.modelType "LockedProject") d

end LockedProject

/-- A lock document: its projects in order. -/
structure Lock where
  projects : List LockedProject
  distinct : (projects.map LockedProject.project).Nodup

namespace Lock

/-- The lock with these projects, which a value describes, if none occurs twice. -/
def ofProjects (found : Data) (projects : List LockedProject) : Checked Lock :=
  let repeats := repeatsByCount (projects.map LockedProject.project)
  if h : repeats = [] then .ok ⟨projects, nodup_of_repeatsByCount_eq_nil h⟩
  else .reject (.value ("Projects locked more than once: " ++ Text.quotedList repeats)) found

def ofData : Data → Checked Lock
  | .table fields =>
    (TableFields.checkOr fields ["projects"] [] (Data.toListOf LockedProject.ofData)).andThen
      (ofProjects (.table fields))
  | d => .reject (.modelType "Lock") d

end Lock

end VendorTree
